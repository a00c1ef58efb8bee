import Mathlib.Algebra.Group.Nat.Even
import Mathlib.Data.Nat.Prime.Basic
import Mathlib.Data.Nat.ModEq
import V3C.Packing.AuxiliaryPlacement
import V3C.Video.ImageConversion

/-! The conversions of an image act on its planes. -/
namespace V3C

section Visits

variable {width height i : ℕ}

/-- A pixel of a picture is visited once. -/
theorem countP_place (hi : i < width * height) :
    (grid width height).countP (fun pixel => pixel.2 * width + pixel.1 = i) = 1 := by
  have hpos : 0 < width := by
    apply Nat.pos_of_ne_zero
    rintro rfl
    omega
  have hperm : ((grid width height).filter fun pixel => pixel.2 * width + pixel.1 = i).Perm
      [(i % width, i / width)] := by
    rw [List.perm_ext_iff_of_nodup ((nodup_grid width height).filter _) (List.nodup_singleton _)]
    intro pixel
    rw [List.mem_filter, List.mem_singleton, decide_eq_true_eq]
    constructor
    · intro h
      have hmem := mem_grid.mp h.1
      apply pixel_inj hmem.1 (Nat.mod_lt i hpos)
      rw [h.2, Nat.div_add_mod']
    · rintro rfl
      exact ⟨mem_grid.mpr ⟨Nat.mod_lt i hpos, Nat.div_lt_of_lt_mul hi⟩, Nat.div_add_mod' i width⟩
  rw [List.countP_eq_length_filter, hperm.length_eq]
  rfl

/-- A sample of a chroma plane is visited at each of the four pixels that it is shared by. -/
theorem countP_shared_place (hi : i < width * height) :
    (grid (2 * width) (2 * height)).countP
      (fun pixel => pixel.2 / 2 * width + pixel.1 / 2 = i) = 4 := by
  have hpos : 0 < width := by
    apply Nat.pos_of_ne_zero
    rintro rfl
    omega
  have hcolumn := Nat.mod_lt i hpos
  have hrow := Nat.div_lt_of_lt_mul hi
  have hplace := Nat.div_add_mod' i width
  generalize i % width = x at hcolumn hplace
  generalize i / width = y at hrow hplace
  have hperm : ((grid (2 * width) (2 * height)).filter
      fun pixel => pixel.2 / 2 * width + pixel.1 / 2 = i).Perm
      [(2 * x, 2 * y), (2 * x + 1, 2 * y), (2 * x, 2 * y + 1), (2 * x + 1, 2 * y + 1)] := by
    rw [List.perm_ext_iff_of_nodup ((nodup_grid _ _).filter _) (by simp)]
    intro pixel
    rw [List.mem_filter, decide_eq_true_eq]
    have hhalves : (pixel.1 / 2 = x ∧ pixel.2 / 2 = y) ↔
        pixel ∈ [(2 * x, 2 * y), (2 * x + 1, 2 * y), (2 * x, 2 * y + 1),
          (2 * x + 1, 2 * y + 1)] := by
      simp only [List.mem_cons, List.not_mem_nil, or_false, Prod.ext_iff]
      omega
    rw [← hhalves]
    constructor
    · intro h
      have hmem := mem_grid.mp h.1
      rw [← hplace] at h
      have hsame := pixel_inj (by omega) hcolumn h.2
      exact ⟨congrArg Prod.fst hsame, congrArg Prod.snd hsame⟩
    · intro h
      refine ⟨mem_grid.mpr ⟨by omega, by omega⟩, ?_⟩
      rw [h.1, h.2]
      exact hplace
  rw [List.countP_eq_length_filter, hperm.length_eq]
  rfl

end Visits

/-- How often the loops of `convertBitdepth` visit the samples of a channel. -/
def visits (format : PCCCOLORFORMAT) (c : Fin 3) : ℕ :=
  if format = .YUV420 ∧ c ≠ 0 then 4 else 1

/-- An image with even dimensions, of a chroma format. -/
structure EvenImage extends PCCImage where
  format_ne : format ≠ .UNKNOWN
  width_dvd : 2 ∣ width
  height_dvd : 2 ∣ height
  length_eq : ∀ c, (channels c).length =
    component width (width / format.subsample) c * component height (height / format.subsample) c

namespace EvenImage

variable (image : EvenImage)

def widthOf (c : Fin 3) : ℕ := component image.width (image.width / image.format.subsample) c

def heightOf (c : Fin 3) : ℕ := component image.height (image.height / image.format.subsample) c

theorem length_channels (c : Fin 3) :
    (image.channels c).length = image.widthOf c * image.heightOf c := image.length_eq c

theorem widthOf_chroma {c : Fin 3} (h : image.format = .YUV420 ∧ c ≠ 0) :
    image.width = 2 * image.widthOf c ∧ image.height = 2 * image.heightOf c := by
  have hwidth := Nat.mul_div_cancel' image.width_dvd
  have hheight := Nat.mul_div_cancel' image.height_dvd
  unfold widthOf heightOf component PCCCOLORFORMAT.subsample
  rw [if_neg h.2, if_pos h.1, if_neg h.2]
  exact ⟨hwidth.symm, hheight.symm⟩

theorem widthOf_luma {c : Fin 3} (h : ¬(image.format = .YUV420 ∧ c ≠ 0)) :
    image.widthOf c = image.width ∧ image.heightOf c = image.height := by
  unfold widthOf heightOf component PCCCOLORFORMAT.subsample
  split_ifs with hzero hformat
  · exact ⟨rfl, rfl⟩
  · exact absurd ⟨hformat, hzero⟩ h
  · rw [Nat.div_one, Nat.div_one]
    exact ⟨rfl, rfl⟩

/-- The places of the pixels are in the channel, and each is visited equally often. -/
theorem valueIndex_lt {c : Fin 3} {pixel : ℕ × ℕ} (h : pixel ∈ grid image.width image.height) :
    image.valueIndex c pixel < (image.channels c).length := by
  have hmem := mem_grid.mp h
  rw [length_channels]
  unfold PCCImage.valueIndex
  split_ifs with hchroma
  · obtain ⟨hwidth, hheight⟩ := image.widthOf_chroma hchroma
    rw [show image.width / 2 = image.widthOf c by omega]
    exact pixel_lt (by omega) (by omega)
  · obtain ⟨hwidth, hheight⟩ := image.widthOf_luma hchroma
    rw [hwidth, hheight]
    exact pixel_lt hmem.1 hmem.2

theorem countP_valueIndex {c : Fin 3} {i : ℕ} (hi : i < (image.channels c).length) :
    (grid image.width image.height).countP (fun pixel => image.valueIndex c pixel = i) =
      visits image.format c := by
  rw [length_channels] at hi
  unfold PCCImage.valueIndex visits
  split_ifs with hchroma
  · obtain ⟨hwidth, hheight⟩ := image.widthOf_chroma hchroma
    rw [hwidth, hheight, Nat.mul_div_cancel_left _ (by decide : 0 < 2)]
    exact countP_shared_place hi
  · obtain ⟨hwidth, hheight⟩ := image.widthOf_luma hchroma
    rw [hwidth, hheight] at hi
    exact countP_place hi

/-- The loops over the pixels apply a function to each sample as often as they visit it. -/
theorem convertValues_eq (f : ℕ → ℕ) :
    image.toPCCImage.convertValues f = some { image.toPCCImage with
      channels := fun c => (image.channels c).map f^[visits image.format c] } := by
  have hchannels : forChannels (fun cc => Rows.modify (image.valueIndex cc) f
      (grid image.width image.height) (image.channels cc)) =
      some fun c => (image.channels c).map f^[visits image.format c] := by
    rw [forChannels_eq_some]
    intro c
    obtain ⟨cells, hrun, hlength, hvalues⟩ := @Rows.exists_modify _ _
      (image.valueIndex c) (grid image.width image.height) (image.channels c) f fun pixel hpixel => image.valueIndex_lt hpixel
    rw [hrun]
    refine congrArg some (List.ext_getElem? fun i => ?_)
    rw [hvalues i, List.getElem?_map]
    by_cases hi : i < (image.channels c).length
    · rw [image.countP_valueIndex hi]
    · rw [List.getElem?_eq_none (not_lt.mp hi)]
      rfl
  unfold PCCImage.convertValues
  rw [hchannels]
  rfl

/-- The same image with other samples. -/
def mapChannels (f : Fin 3 → ℕ → ℕ) : EvenImage :=
  { image with
    channels := fun c => (image.channels c).map (f c)
    length_eq := fun c => (List.length_map _).trans (image.length_eq c) }

variable {image} {bits bitdepthInput bitdepthOutput : ℕ} {msbAlignFlag : Bool}

theorem convertBitdepth_eq (hinput : bitdepthInput ≤ bits) (houtput : bitdepthOutput ≤ bits) :
    image.toPCCImage.convertBitdepth bits bitdepthInput bitdepthOutput msbAlignFlag =
      some (image.mapChannels fun c =>
        (convertSample bits bitdepthInput bitdepthOutput msbAlignFlag)^[visits image.format c]
        ).toPCCImage := by
  unfold PCCImage.convertBitdepth
  rw [if_neg (by omega)]
  split_ifs with h
  · exact image.convertValues_eq _
  · -- the value is left as it is
    have hid : convertSample bits bitdepthInput bitdepthOutput msbAlignFlag = id := by
      funext x
      unfold convertSample
      rw [if_neg fun hle => h (.inl hle), if_neg fun hflag => h (.inr hflag)]
      rfl
    unfold mapChannels
    simp only [hid, Function.iterate_id, List.map_id]

end EvenImage

/-- A sample that the change of the bit depth shifts to zero. -/
def ShiftedOut (bits bitdepthInput bitdepthOutput x : ℕ) : Prop :=
  if bitdepthOutput ≤ bitdepthInput then x < 2 ^ (bitdepthInput - bitdepthOutput)
  else 2 ^ bits ∣ x * 2 ^ (bitdepthOutput - bitdepthInput)

section Samples

variable {bits bitdepthInput bitdepthOutput x : ℕ} {msbAlignFlag : Bool}

theorem div_four_iff {p : ℕ} (hp : 2 ≤ p) : (fun x => x / p)^[4] x = x / p ↔ x < p := by
  show x / p / p / p / p = x / p ↔ x < p
  rw [← Nat.div_eq_zero_iff_lt (by omega)]
  generalize x / p = q
  constructor
  · intro h
    by_contra hne
    have hlt : q / p < q := Nat.div_lt_self (Nat.pos_of_ne_zero hne) hp
    have hle : q / p / p / p ≤ q / p := (Nat.div_le_self _ _).trans (Nat.div_le_self _ _)
    omega
  · rintro rfl
    rw [Nat.zero_div, Nat.zero_div, Nat.zero_div]

theorem mul_four_iff {d : ℕ} (hd : 0 < d) :
    (fun x => x * 2 ^ d % 2 ^ bits)^[4] x = x * 2 ^ d % 2 ^ bits ↔ 2 ^ bits ∣ x * 2 ^ d := by
  show (x * 2 ^ d % 2 ^ bits * 2 ^ d % 2 ^ bits * 2 ^ d % 2 ^ bits) * 2 ^ d % 2 ^ bits =
    x * 2 ^ d % 2 ^ bits ↔ 2 ^ bits ∣ x * 2 ^ d
  have hfour : (x * 2 ^ d % 2 ^ bits * 2 ^ d % 2 ^ bits * 2 ^ d % 2 ^ bits) * 2 ^ d % 2 ^ bits =
      x * 2 ^ d * 2 ^ (3 * d) % 2 ^ bits := by
    simp only [Nat.mod_mul_mod]
    congr 1
    rw [show 3 * d = d + d + d by ring, Nat.pow_add, Nat.pow_add]
    ring
  rw [hfour]
  constructor
  · intro h
    have hone : 1 ≤ 2 ^ (3 * d) := Nat.one_le_two_pow
    have hdvd : 2 ^ bits ∣ x * 2 ^ d * 2 ^ (3 * d) - x * 2 ^ d :=
      (Nat.modEq_iff_dvd' (Nat.le_mul_of_pos_right _ hone)).mp h.symm
    rw [← Nat.mul_sub_one] at hdvd
    have hodd : Odd (2 ^ (3 * d) - 1) :=
      Nat.Even.sub_odd hone ((even_two).pow_of_ne_zero (by omega)) odd_one
    exact (Nat.Coprime.pow_left bits (Nat.coprime_two_left.mpr hodd)).dvd_of_dvd_mul_right hdvd
  · intro h
    rw [Nat.mod_eq_zero_of_dvd h, Nat.mod_eq_zero_of_dvd (h.mul_right _)]

/-- A sample that is converted four times is as if converted once when it is not shifted, or
shifted to zero. -/
theorem convertSample_four_iff :
    (convertSample bits bitdepthInput bitdepthOutput msbAlignFlag)^[4] x =
      convertSample bits bitdepthInput bitdepthOutput msbAlignFlag x ↔
    msbAlignFlag = false ∨ bitdepthInput = bitdepthOutput ∨
      ShiftedOut bits bitdepthInput bitdepthOutput x := by
  cases msbAlignFlag with
  | false =>
    rw [eq_self_iff_true, true_or, iff_true]
    by_cases hle : bitdepthOutput ≤ bitdepthInput
    · have hclamp : convertSample bits bitdepthInput bitdepthOutput false =
          fun x => min x ((2 ^ bitdepthOutput - 1) % 2 ^ bits) := funext fun x => if_pos hle
      rw [hclamp]
      show min (min (min (min x _) _) _) _ = min x _
      rw [min_assoc, min_self, min_assoc, min_self, min_assoc, min_self]
    · have hid : convertSample bits bitdepthInput bitdepthOutput false = id :=
        funext fun x => if_neg hle
      rw [hid]
      rfl
  | true =>
    rw [or_iff_right (by decide)]
    unfold ShiftedOut
    by_cases hle : bitdepthOutput ≤ bitdepthInput
    · have hshift : convertSample bits bitdepthInput bitdepthOutput true =
          fun x => x / 2 ^ (bitdepthInput - bitdepthOutput) := funext fun x => if_pos hle
      rw [hshift, if_pos hle]
      by_cases heq : bitdepthInput = bitdepthOutput
      · rw [heq, Nat.sub_self, pow_zero, iff_true_intro (Or.inl rfl), iff_true]
        show x / 1 / 1 / 1 / 1 = x / 1
        rw [Nat.div_one, Nat.div_one, Nat.div_one, Nat.div_one]
      · rw [or_iff_right heq]
        apply div_four_iff
        exact Nat.le_self_pow (by omega) 2
    · have hshift : convertSample bits bitdepthInput bitdepthOutput true =
          fun x => x * 2 ^ (bitdepthOutput - bitdepthInput) % 2 ^ bits :=
        funext fun x => if_neg hle
      rw [hshift, if_neg hle, or_iff_right (by omega)]
      exact mul_four_iff (by omega)

theorem convertSample_lower_raise (hle : bitdepthInput ≤ bitdepthOutput)
    (houtput : bitdepthOutput ≤ bits) (hx : x < 2 ^ bitdepthInput) :
    convertSample bits bitdepthOutput bitdepthInput true
      (convertSample bits bitdepthInput bitdepthOutput true x) = x := by
  have hraise : convertSample bits bitdepthInput bitdepthOutput true x =
      x * 2 ^ (bitdepthOutput - bitdepthInput) := by
    unfold convertSample
    by_cases heq : bitdepthOutput ≤ bitdepthInput
    · rw [if_pos heq, show bitdepthInput - bitdepthOutput = 0 by omega,
        show bitdepthOutput - bitdepthInput = 0 by omega, pow_zero, Nat.div_one, Nat.mul_one]
      rfl
    · rw [if_neg heq]
      apply Nat.mod_eq_of_lt
      calc x * 2 ^ (bitdepthOutput - bitdepthInput)
          < 2 ^ bitdepthInput * 2 ^ (bitdepthOutput - bitdepthInput) :=
            Nat.mul_lt_mul_of_pos_right hx (by positivity)
        _ = 2 ^ bitdepthOutput := by rw [← Nat.pow_add, Nat.add_sub_cancel' hle]
        _ ≤ 2 ^ bits := Nat.pow_le_pow_right (by decide) houtput
  rw [hraise]
  unfold convertSample
  rw [if_pos hle, if_pos rfl]
  exact Nat.mul_div_cancel _ (by positivity)

theorem eq_zero_of_shiftedOut (hlt : bitdepthInput < bitdepthOutput)
    (houtput : bitdepthOutput ≤ bits) (hx : x < 2 ^ bitdepthInput)
    (h : ShiftedOut bits bitdepthInput bitdepthOutput x) : x = 0 := by
  unfold ShiftedOut at h
  rw [if_neg (by omega)] at h
  have hbound : x * 2 ^ (bitdepthOutput - bitdepthInput) < 2 ^ bits := by
    calc x * 2 ^ (bitdepthOutput - bitdepthInput)
        < 2 ^ bitdepthInput * 2 ^ (bitdepthOutput - bitdepthInput) :=
          Nat.mul_lt_mul_of_pos_right hx (by positivity)
      _ = 2 ^ bitdepthOutput := by rw [← Nat.pow_add, Nat.add_sub_cancel' hlt.le]
      _ ≤ 2 ^ bits := Nat.pow_le_pow_right (by decide) houtput
  have hzero := Nat.eq_zero_of_dvd_of_lt h hbound
  exact (Nat.mul_eq_zero.mp hzero).resolve_right (by positivity)

end Samples

section Planes

variable {src dst : List ℕ} {n m : ℕ}

/-- A pair of rows of a plane that is doubled. -/
theorem exists_doubleRow {y2 : ℕ} (hsrc : src.length = n * m)
    (hdst : dst.length = 2 * n * (2 * m)) (hy2 : y2 < m) :
    ∃ first dst', Rows.store (fun place : ℕ × ℕ => 2 * y2 * (2 * n) + 2 * place.2 + place.1)
        (fun place => src[y2 * n + place.2]?) (grid 2 n) dst = some first ∧
      Rows.store (fun x => 2 * y2 * (2 * n) + 2 * n + x) (fun x => first[2 * y2 * (2 * n) + x]?)
        (List.range (2 * n)) first = some dst' ∧
      dst'.length = dst.length ∧
      (∀ r < 2, ∀ x < 2 * n, dst'[(2 * y2 + r) * (2 * n) + x]? = src[y2 * n + x / 2]?) ∧
      ∀ i < 2 * y2 * (2 * n), dst'[i]? = dst[i]? := by
  have hrows : 2 * y2 * (2 * n) + 2 * n + 2 * n ≤ dst.length := by
    have hle : (2 * y2 + 2) * (2 * n) ≤ 2 * m * (2 * n) := Nat.mul_le_mul_right _ (by omega)
    rw [Nat.add_mul, Nat.mul_comm (2 * m), ← hdst] at hle
    omega
  generalize hstart : 2 * y2 * (2 * n) = start at hrows ⊢
  have hvalue : ∀ x2 < n, ∃ a, src[y2 * n + x2]? = some a := by
    intro x2 hx2
    have hlt : y2 * n + x2 < src.length := hsrc ▸ pixel_lt hx2 hy2
    exact ⟨_, List.getElem?_eq_getElem hlt⟩
  obtain ⟨first, hfirst⟩ := @Rows.exists_store _ _
    (fun place : ℕ × ℕ => start + 2 * place.2 + place.1)
    (fun place => src[y2 * n + place.2]?) (grid 2 n) dst
    (fun place hplace => hvalue _ (mem_grid.mp hplace).2)
    (fun place hplace => by
      have hmem := mem_grid.mp hplace
      omega)
  have hstored := Rows.stored_of_store hfirst fun place hplace place' hplace' heq => by
    have hmem := mem_grid.mp hplace
    have hmem' := mem_grid.mp hplace'
    rw [show place.2 = place'.2 by omega]
  have hrow : ∀ x < 2 * n, first[start + x]? = src[y2 * n + x / 2]? := by
    intro x hx
    have hat := hstored.at_place (x % 2, x / 2)
      (mem_grid.mpr ⟨Nat.mod_lt x (by decide), by omega⟩)
    dsimp only at hat
    rw [Nat.add_assoc, Nat.div_add_mod] at hat
    exact hat
  obtain ⟨dst', hdst'⟩ := @Rows.exists_store _ _
    (fun x => start + 2 * n + x) (fun x => first[start + x]?) (List.range (2 * n)) first
    (fun x hx => by
      rw [hrow x (List.mem_range.mp hx)]
      have hlt := List.mem_range.mp hx
      exact hvalue _ (by omega))
    (fun x hx => by
      have hlt := List.mem_range.mp hx
      have hlength := hstored.length_eq
      omega)
  have hcopied := Rows.stored_of_store hdst' fun x _ x' _ heq => by
    rw [show x = x' by omega]
  refine ⟨first, dst', hfirst, hdst', hcopied.length_eq.trans hstored.length_eq, ?_, ?_⟩
  · intro r hr x hx
    rw [Nat.add_mul, hstart]
    by_cases hzero : r = 0
    · rw [hzero, Nat.zero_mul, Nat.add_zero, hcopied.elsewhere, hrow x hx]
      intro x' hx'
      omega
    · rw [show r = 1 by omega, Nat.one_mul, hcopied.at_place x (List.mem_range.mpr hx), hrow x hx]
  · intro i hi
    rw [hcopied.elsewhere, hstored.elsewhere]
    · intro place hplace
      omega
    · intro x hx
      omega

/-- A plane that is doubled has every value in a square of four samples. -/
theorem exists_doublePlane (hsrc : src.length = n * m) (hdst : dst.length = 2 * n * (2 * m)) :
    ∃ dst', doublePlane src n m (2 * n) dst = some dst' ∧ dst'.length = dst.length ∧
      ∀ y < 2 * m, ∀ x < 2 * n, dst'[y * (2 * n) + x]? = src[y / 2 * n + x / 2]? := by
  unfold doublePlane
  have hrun : ∀ k ≤ m, ∃ dst', (List.range k).foldlM (fun dst y2 => do
      let buffer := 2 * y2 * (2 * n)
      let dst ← Rows.store (fun place : ℕ × ℕ => buffer + 2 * place.2 + place.1)
        (fun place => src[y2 * n + place.2]?) (grid 2 n) dst
      Rows.store (fun x => buffer + 2 * n + x) (fun x => dst[buffer + x]?)
        (List.range (2 * n)) dst) dst = some dst' ∧ dst'.length = dst.length ∧
      ∀ y < 2 * k, ∀ x < 2 * n, dst'[y * (2 * n) + x]? = src[y / 2 * n + x / 2]? := by
    intro k
    induction k with
    | zero =>
      intro _
      exact ⟨dst, rfl, rfl, fun y hy => absurd hy (Nat.not_lt_zero y)⟩
    | succ k ih =>
      intro hk
      obtain ⟨before, hbefore, hlength, hvalues⟩ := ih (by omega)
      obtain ⟨first, dst', hfirst, hsecond, hlength', hrows, hkeep⟩ :=
        exists_doubleRow hsrc (hlength.trans hdst) (by omega : k < m)
      refine ⟨dst', ?_, hlength'.trans hlength, ?_⟩
      · rw [List.range_succ, List.foldlM_append, hbefore, Option.bind_eq_bind, Option.bind_some,
          List.foldlM_cons]
        dsimp only
        rw [hfirst, Option.bind_eq_bind, Option.bind_some, hsecond]
        rfl
      · intro y hy x hx
        by_cases hlast : y < 2 * k
        · rw [hkeep _ _, hvalues y hlast x hx]
          have hlt := pixel_lt hx hlast
          rw [Nat.mul_comm (2 * k)]
          exact hlt
        · have hat := hrows (y - 2 * k) (by omega) x hx
          rw [show 2 * k + (y - 2 * k) = y by omega] at hat
          rw [hat, show y / 2 = k by omega]
  exact hrun m (le_refl m)

end Planes

theorem copyPlane_eq {src dst : List ℕ} (h : src.length = dst.length) :
    copyPlane src dst = some src := by
  unfold copyPlane
  rw [if_pos h.le, h, List.drop_length, List.append_nil]

namespace EvenImage

variable {image : EvenImage}

theorem exists_halves (image : EvenImage) :
    ∃ n m, image.width = 2 * n ∧ image.height = 2 * m := by
  obtain ⟨n, hn⟩ := image.width_dvd
  obtain ⟨m, hm⟩ := image.height_dvd
  exact ⟨n, m, hn, hm⟩

/-- The planes of the image in the other chroma format. -/
structure Shared (image : EvenImage) (up : PCCImage) : Prop where
  width_eq : up.width = image.width
  height_eq : up.height = image.height
  format_eq : up.format = .YUV444
  luma : up.channels 0 = image.channels 0
  chroma : ∀ c ≠ 0, ∀ y < image.height, ∀ x < image.width,
    (up.channels c)[y * image.width + x]? =
      (image.channels c)[y / 2 * (image.width / 2) + x / 2]?

theorem length_of_yuv420 (hformat : image.format = .YUV420) {c : Fin 3} (hc : c ≠ 0) {n m : ℕ}
    (hwidth : image.width = 2 * n) (hheight : image.height = 2 * m) :
    (image.channels c).length = n * m := by
  obtain ⟨hw, hh⟩ := image.widthOf_chroma ⟨hformat, hc⟩
  rw [length_channels, show image.widthOf c = n by omega, show image.heightOf c = m by omega]

theorem length_luma (image : EvenImage) :
    (image.channels 0).length = image.width * image.height := image.length_eq 0

theorem exists_convertYUV420ToYUV444 (hformat : image.format = .YUV420) :
    ∃ up, image.toPCCImage.convertYUV420ToYUV444 = some up ∧ image.Shared up := by
  obtain ⟨n, m, hwidth, hheight⟩ := image.exists_halves
  have hzeros : ∀ c, (resizeVector (PCCImage.channelSize (image.width * image.height)
      .YUV444 c) []).length = image.width * image.height := by
    intro c
    rw [length_resizeVector]
    unfold PCCImage.channelSize component
    split_ifs
    · rfl
    · contradiction
    · rfl
  have hchannels : ∀ c, ∃ channel, (if c = 0 then copyPlane (image.channels 0)
        (resizeVector (PCCImage.channelSize (image.width * image.height) .YUV444 0) [])
      else doublePlane (image.channels c) (image.width / 2) ((image.height + 1) / 2) image.width
        (resizeVector (PCCImage.channelSize (image.width * image.height) .YUV444 c) [])) =
      some channel ∧ (c = 0 → channel = image.channels 0) ∧
      (c ≠ 0 → ∀ y < image.height, ∀ x < image.width, channel[y * image.width + x]? =
        (image.channels c)[y / 2 * (image.width / 2) + x / 2]?) := by
    intro c
    by_cases hc : c = 0
    · rw [if_pos hc]
      refine ⟨image.channels 0, copyPlane_eq ?_, fun _ => rfl, fun hne => absurd hc hne⟩
      rw [hzeros, image.length_luma]
    · have hzero := hzeros c
      rw [if_neg hc, hwidth, hheight, Nat.mul_div_cancel_left _ (by decide : 0 < 2),
        show (2 * m + 1) / 2 = m by omega]
      rw [hwidth, hheight] at hzero
      obtain ⟨channel, hrun, -, hvalues⟩ :=
        exists_doublePlane (length_of_yuv420 hformat hc hwidth hheight) hzero
      exact ⟨channel, hrun, fun hzero => absurd hzero hc, fun _ => hvalues⟩
  choose channels hrun hluma hchroma using hchannels
  refine ⟨⟨image.width, image.height, .YUV444, channels⟩, ?_, rfl, rfl, rfl, hluma 0 rfl, ?_⟩
  · unfold PCCImage.convertYUV420ToYUV444 PCCImage.resize
    rw [if_neg (not_not.mpr hformat), if_neg (by decide), Option.bind_eq_bind, Option.bind_some]
    simp only [PCCImage.channels_empty]
    rw [forChannels_eq_some.mpr hrun]
    rfl
  · exact fun c hc => hchroma c hc

/-- Four equal samples have their value as mean. -/
theorem meanOfFour_eq {bits : ℕ} {src : List ℕ} {width x y v : ℕ} (hv : v < 2 ^ bits)
    (hfirst : src[y * width + x]? = some v) (hsecond : src[y * width + x + 1]? = some v)
    (hthird : src[y * width + width + x]? = some v)
    (hfourth : src[y * width + width + x + 1]? = some v) :
    meanOfFour bits src width x y = some v := by
  unfold meanOfFour
  rw [hfirst, hsecond, hthird, hfourth]
  show some ((v + v + v + v + 2) / 4 % 2 ^ bits) = some v
  rw [show (v + v + v + v + 2) / 4 = v by omega, Nat.mod_eq_of_lt hv]

theorem Shared.convertYUV444ToYUV420 {up : PCCImage} {bits : ℕ} (h : image.Shared up)
    (hformat : image.format = .YUV420)
    (hsamples : ∀ c, ∀ x ∈ image.channels c, x < 2 ^ bits) :
    up.convertYUV444ToYUV420 bits = some image.toPCCImage := by
  obtain ⟨n, m, hwidth, hheight⟩ := image.exists_halves
  have hchannels : forChannels (fun c => if c = 0 then copyPlane (up.channels 0)
        (resizeVector (PCCImage.channelSize (up.width * up.height) .YUV420 0) [])
      else Rows.store (fun pixel => pixel.2 * (up.width / 2) + pixel.1)
        (fun pixel => meanOfFour bits (up.channels c) up.width (2 * pixel.1) (2 * pixel.2))
        (grid ((up.width + 1) / 2) ((up.height + 1) / 2))
        (resizeVector (PCCImage.channelSize (up.width * up.height) .YUV420 c) [])) =
      some image.channels := by
    rw [forChannels_eq_some, h.width_eq, h.height_eq, h.luma]
    intro c
    by_cases hc : c = 0
    · rw [if_pos hc, hc]
      apply copyPlane_eq
      rw [length_resizeVector, image.length_luma]
      rfl
    · have hlength := length_of_yuv420 hformat hc hwidth hheight
      have hsize : PCCImage.channelSize (image.width * image.height) .YUV420 c = n * m := by
        unfold PCCImage.channelSize component
        rw [if_neg hc, if_pos rfl, hwidth, hheight, show 2 * n * (2 * m) = n * m * 4 by ring]
        exact Nat.mul_div_cancel _ (by decide)
      have hchroma := h.chroma c hc
      rw [hwidth, hheight, Nat.mul_div_cancel_left _ (by decide : 0 < 2)] at hchroma
      rw [if_neg hc, hsize, hwidth, hheight, Nat.mul_div_cancel_left _ (by decide : 0 < 2),
        show (2 * n + 1) / 2 = n by omega, show (2 * m + 1) / 2 = m by omega]
      have hvalue : ∀ pixel ∈ grid n m, ∃ v, (image.channels c)[pixel.2 * n + pixel.1]? = some v ∧
          meanOfFour bits (up.channels c) (2 * n) (2 * pixel.1) (2 * pixel.2) = some v := by
        intro pixel hpixel
        have hmem := mem_grid.mp hpixel
        have hlt : pixel.2 * n + pixel.1 < (image.channels c).length :=
          hlength ▸ pixel_lt hmem.1 hmem.2
        refine ⟨_, List.getElem?_eq_getElem hlt, ?_⟩
        have hsample : ∀ x y, x / 2 = pixel.1 → y / 2 = pixel.2 →
            (up.channels c)[y * (2 * n) + x]? = some (image.channels c)[pixel.2 * n + pixel.1] := by
          intro x y hx hy
          rw [hchroma y (by omega) x (by omega), hx, hy]
          exact List.getElem?_eq_getElem hlt
        apply meanOfFour_eq (hsamples c _ (List.getElem_mem hlt))
        · exact hsample _ _ (by omega) (by omega)
        · exact hsample (2 * pixel.1 + 1) _ (by omega) (by omega)
        · have hat := hsample (2 * pixel.1) (2 * pixel.2 + 1) (by omega) (by omega)
          rw [Nat.succ_mul] at hat
          exact hat
        · have hat := hsample (2 * pixel.1 + 1) (2 * pixel.2 + 1) (by omega) (by omega)
          rw [Nat.succ_mul] at hat
          exact hat
      obtain ⟨channel, hrun⟩ := @Rows.exists_store _ _
        (fun pixel : ℕ × ℕ => pixel.2 * n + pixel.1) _ (grid n m) (resizeVector (n * m) [])
        (fun pixel hpixel => by
          obtain ⟨v, -, hv⟩ := hvalue pixel hpixel
          exact ⟨v, hv⟩)
        (fun pixel hpixel => by
          have hmem := mem_grid.mp hpixel
          rw [length_resizeVector]
          exact pixel_lt hmem.1 hmem.2)
      have hstored := Rows.stored_of_store hrun fun pixel hpixel pixel' hpixel' heq => by
        rw [place_inj (le_refl n) pixel hpixel pixel' hpixel' heq]
      rw [hrun]
      refine congrArg some (hstored.eq_of_covers ?_ ?_ ?_)
      · rw [length_resizeVector, hlength]
      · intro i hi
        rw [length_resizeVector] at hi
        have hpos : 0 < n := by
          apply Nat.pos_of_ne_zero
          intro hzero
          rw [hzero, Nat.zero_mul] at hi
          exact Nat.not_lt_zero i hi
        exact ⟨(i % n, i / n), mem_grid.mpr ⟨Nat.mod_lt i hpos, Nat.div_lt_of_lt_mul hi⟩,
          Nat.div_add_mod' i n⟩
      · intro pixel hpixel
        obtain ⟨v, hat, hv⟩ := hvalue pixel hpixel
        rw [hv, hat]
  unfold PCCImage.convertYUV444ToYUV420 PCCImage.resize
  rw [if_neg (not_not.mpr h.format_eq), if_neg (by decide), Option.bind_eq_bind, Option.bind_some]
  simp only [PCCImage.channels_empty]
  rw [hchannels, h.width_eq, h.height_eq, ← hformat]
  rfl

/-- The samples of an image at a rate: each of them in a square. -/
structure Enlarged (image : EvenImage) (rate : ℕ) (up : EvenImage) : Prop where
  width_eq : up.width = rate * image.width
  height_eq : up.height = rate * image.height
  format_eq : up.format = image.format
  sample : ∀ c, ∀ y < rate * image.heightOf c, ∀ x < rate * image.widthOf c,
    (up.channels c)[y * (rate * image.widthOf c) + x]? =
      (image.channels c)[y / rate * image.widthOf c + x / rate]?

theorem Enlarged.widthOf_eq {rate : ℕ} {up : EvenImage} (h : image.Enlarged rate up) (c : Fin 3) :
    up.widthOf c = rate * image.widthOf c ∧ up.heightOf c = rate * image.heightOf c := by
  have hwidth := h.width_eq
  have hheight := h.height_eq
  by_cases hchroma : image.format = .YUV420 ∧ c ≠ 0
  · obtain ⟨hw, hh⟩ := image.widthOf_chroma hchroma
    obtain ⟨hw', hh'⟩ := up.widthOf_chroma (h.format_eq ▸ hchroma)
    rw [hw', hw, Nat.mul_left_comm] at hwidth
    rw [hh', hh, Nat.mul_left_comm] at hheight
    omega
  · obtain ⟨hw, hh⟩ := image.widthOf_luma hchroma
    obtain ⟨hw', hh'⟩ := up.widthOf_luma (h.format_eq ▸ hchroma)
    rw [hw', hh', hw, hh]
    exact ⟨hwidth, hheight⟩

theorem exists_upsampleOnce (image : EvenImage) :
    ∃ up : EvenImage, image.toPCCImage.upsampleOnce = some up.toPCCImage ∧ image.Enlarged 2 up := by
  have hplane : ∀ c, (if image.format ≠ .YUV420 ∨ c = 0 then image.width * 2
        else image.width * 2 / 2) = 2 * image.widthOf c ∧
      (if image.format ≠ .YUV420 ∨ c = 0 then image.height * 2
        else image.height * 2 / 2) = 2 * image.heightOf c ∧
      PCCImage.channelSize (image.width * 2 * (image.height * 2)) image.format c =
        2 * image.widthOf c * (2 * image.heightOf c) := by
    intro c
    unfold PCCImage.channelSize component
    by_cases hchroma : image.format = .YUV420 ∧ c ≠ 0
    · obtain ⟨hw, hh⟩ := image.widthOf_chroma hchroma
      rw [if_neg (by tauto), if_neg (by tauto), if_neg hchroma.2, if_pos hchroma.1, hw, hh,
        show 2 * image.widthOf c * 2 * (2 * image.heightOf c * 2) =
          2 * image.widthOf c * (2 * image.heightOf c) * 4 by ring]
      refine ⟨by omega, by omega, Nat.mul_div_cancel _ (by decide)⟩
    · obtain ⟨hw, hh⟩ := image.widthOf_luma hchroma
      have hsize : (if c = 0 then image.width * 2 * (image.height * 2)
          else if image.format = .YUV420 then image.width * 2 * (image.height * 2) / 4
          else image.width * 2 * (image.height * 2)) = image.width * 2 * (image.height * 2) := by
        split_ifs with hzero hformat
        · rfl
        · exact absurd ⟨hformat, hzero⟩ hchroma
        · rfl
      rw [if_pos (by tauto), if_pos (by tauto), hsize, hw, hh, Nat.mul_comm 2, Nat.mul_comm 2]
      exact ⟨rfl, rfl, rfl⟩
  have hchannels : ∀ c, ∃ channel, doublePlane (image.channels c)
        (((if image.format ≠ .YUV420 ∨ c = 0 then image.width * 2
          else image.width * 2 / 2) + 1) / 2)
        (((if image.format ≠ .YUV420 ∨ c = 0 then image.height * 2
          else image.height * 2 / 2) + 1) / 2)
        (if image.format ≠ .YUV420 ∨ c = 0 then image.width * 2 else image.width * 2 / 2)
        (resizeVector (PCCImage.channelSize (image.width * 2 * (image.height * 2))
          image.format c) []) = some channel ∧
      channel.length = 2 * image.widthOf c * (2 * image.heightOf c) ∧
      ∀ y < 2 * image.heightOf c, ∀ x < 2 * image.widthOf c,
        channel[y * (2 * image.widthOf c) + x]? =
          (image.channels c)[y / 2 * image.widthOf c + x / 2]? := by
    intro c
    obtain ⟨hw, hh, hsize⟩ := hplane c
    rw [hw, hh, hsize, show (2 * image.widthOf c + 1) / 2 = image.widthOf c by omega,
      show (2 * image.heightOf c + 1) / 2 = image.heightOf c by omega]
    obtain ⟨channel, hrun, hlength, hvalues⟩ := exists_doublePlane (image.length_channels c)
      (length_resizeVector (2 * image.widthOf c * (2 * image.heightOf c)) [])
    exact ⟨channel, hrun, hlength.trans (length_resizeVector _ _), hvalues⟩
  choose channels hrun hlength hvalues using hchannels
  have hdouble : ∀ c, component (image.width * 2) (image.width * 2 / image.format.subsample) c =
        2 * image.widthOf c ∧
      component (image.height * 2) (image.height * 2 / image.format.subsample) c =
        2 * image.heightOf c := by
    intro c
    have hwidth := image.width_dvd
    have hheight := image.height_dvd
    unfold widthOf heightOf component PCCCOLORFORMAT.subsample
    split_ifs
    · exact ⟨Nat.mul_comm _ _, Nat.mul_comm _ _⟩
    · omega
    · omega
  refine ⟨⟨⟨image.width * 2, image.height * 2, image.format, channels⟩, image.format_ne,
    Nat.dvd_mul_left 2 _, Nat.dvd_mul_left 2 _, ?_⟩, ?_, Nat.mul_comm _ _, Nat.mul_comm _ _, rfl,
    hvalues⟩
  · intro c
    obtain ⟨hw, hh⟩ := hdouble c
    dsimp only
    rw [hw, hh]
    exact hlength c
  · unfold PCCImage.upsampleOnce PCCImage.resize
    rw [if_neg image.format_ne, Option.bind_eq_bind, Option.bind_some]
    simp only [PCCImage.channels_empty]
    rw [forChannels_eq_some.mpr hrun]
    rfl

/-- The loop doubles an image until the rate is used up. -/
theorem exists_upsampleLoop (image : EvenImage) {k fuel : ℕ} (hfuel : k < fuel) :
    ∃ up : EvenImage, PCCImage.upsampleLoop fuel (2 ^ k) image.toPCCImage = some up.toPCCImage ∧
      image.Enlarged (2 ^ k) up := by
  induction k generalizing image fuel with
  | zero =>
    obtain ⟨fuel, rfl⟩ := Nat.exists_eq_succ_of_ne_zero hfuel.ne'
    refine ⟨image, rfl, ?_⟩
    rw [pow_zero]
    refine ⟨(Nat.one_mul _).symm, (Nat.one_mul _).symm, rfl, ?_⟩
    intro c y _ x _
    rw [Nat.one_mul, Nat.div_one, Nat.div_one]
  | succ k ih =>
    obtain ⟨fuel, rfl⟩ := Nat.exists_eq_succ_of_ne_zero (Nat.ne_zero_of_lt hfuel)
    obtain ⟨once, honce, htwice⟩ := exists_upsampleOnce image
    obtain ⟨up, hup, hrate⟩ := ih once (by omega : k < fuel)
    refine ⟨up, ?_, ?_, ?_, hrate.format_eq.trans htwice.format_eq, ?_⟩
    · rw [PCCImage.upsampleLoop, if_pos (Nat.one_lt_two_pow (Nat.succ_ne_zero k)), honce,
        Option.bind_eq_bind, Option.bind_some, Nat.pow_succ, Nat.mul_div_cancel _ (by decide)]
      exact hup
    · rw [hrate.width_eq, htwice.width_eq, Nat.pow_succ, Nat.mul_assoc]
    · rw [hrate.height_eq, htwice.height_eq, Nat.pow_succ, Nat.mul_assoc]
    · intro c y hy x hx
      obtain ⟨hw, hh⟩ := htwice.widthOf_eq c
      have hsample := hrate.sample c y (by rw [hh, ← Nat.mul_assoc, ← Nat.pow_succ]; exact hy) x
        (by rw [hw, ← Nat.mul_assoc, ← Nat.pow_succ]; exact hx)
      rw [Nat.pow_succ, Nat.mul_assoc] at hy hx
      have honceSample := htwice.sample c (y / 2 ^ k) (Nat.div_lt_of_lt_mul hy) (x / 2 ^ k)
        (Nat.div_lt_of_lt_mul hx)
      have hassoc : 2 ^ k * (2 * image.widthOf c) = 2 ^ (k + 1) * image.widthOf c := by
        rw [Nat.pow_succ, Nat.mul_assoc]
      rw [hw, honceSample, Nat.div_div_eq_div_mul, Nat.div_div_eq_div_mul, hassoc,
        ← Nat.pow_succ] at hsample
      exact hsample

end EvenImage

structure ImageConversion where
  bits : ℕ
  bits_mem : bits = 8 ∨ bits = 16
  image : EvenImage
  sample_lt : ∀ c, ∀ x ∈ image.channels c, x < 2 ^ bits
  bitdepthInput : ℕ
  bitdepthOutput : ℕ
  input_le : bitdepthInput ≤ bits
  output_le : bitdepthOutput ≤ bits
  msbAlignFlag : Bool
  k : ℕ
  k_lt : k < 64

/-- Each conversion acts on the samples of the planes, and on nothing else. -/
structure ImageConversion.Planewise (conversion : ImageConversion) : Prop where
  converts : ∃ image', conversion.image.toPCCImage.convertBitdepth conversion.bits
      conversion.bitdepthInput conversion.bitdepthOutput conversion.msbAlignFlag = some image' ∧
    image'.width = conversion.image.width ∧ image'.height = conversion.image.height ∧
    image'.format = conversion.image.format ∧
    ∀ c, image'.channels c = (conversion.image.channels c).map
      (convertSample conversion.bits conversion.bitdepthInput conversion.bitdepthOutput
        conversion.msbAlignFlag)
  restores : conversion.msbAlignFlag = true →
    conversion.bitdepthInput ≤ conversion.bitdepthOutput →
    (∀ c, ∀ x ∈ conversion.image.channels c, x < 2 ^ conversion.bitdepthInput) →
    ∃ image', conversion.image.toPCCImage.convertBitdepth conversion.bits
        conversion.bitdepthInput conversion.bitdepthOutput true = some image' ∧
      image'.convertBitdepth conversion.bits conversion.bitdepthOutput conversion.bitdepthInput
        true = some conversion.image.toPCCImage
  chroma : conversion.image.format = .YUV420 →
    ∃ up, conversion.image.toPCCImage.convertYUV420ToYUV444 = some up ∧
      up.convertYUV444ToYUV420 conversion.bits = some conversion.image.toPCCImage
  upsamples : ∃ up : EvenImage,
    conversion.image.toPCCImage.upsample (2 ^ conversion.k) = some up.toPCCImage ∧
      conversion.image.Enlarged (2 ^ conversion.k) up

namespace ImageConversion

variable {conversion : ImageConversion}

/-- The samples of the chroma planes are shifted once, or as if once. -/
def ShiftsOnce (conversion : ImageConversion) : Prop :=
  conversion.image.format ≠ .YUV420 ∨ conversion.msbAlignFlag = false ∨
    conversion.bitdepthInput = conversion.bitdepthOutput ∨
    ∀ c ≠ 0, ∀ x ∈ conversion.image.channels c,
      ShiftedOut conversion.bits conversion.bitdepthInput conversion.bitdepthOutput x

theorem visits_eq_four {format : PCCCOLORFORMAT} {c : Fin 3} (h : format = .YUV420 ∧ c ≠ 0) :
    visits format c = 4 := if_pos h

theorem visits_eq_one {format : PCCCOLORFORMAT} {c : Fin 3} (h : ¬(format = .YUV420 ∧ c ≠ 0)) :
    visits format c = 1 := if_neg h

theorem shiftsOnce_of_converts (h : conversion.Planewise) : conversion.ShiftsOnce := by
  obtain ⟨image', himage', -, -, -, hchannels⟩ := h.converts
  rw [EvenImage.convertBitdepth_eq conversion.input_le conversion.output_le] at himage'
  obtain rfl := Option.some.inj himage'
  unfold ShiftsOnce
  rw [or_iff_not_imp_left, not_not]
  intro hformat
  have hfour : ∀ c ≠ 0, ∀ x ∈ conversion.image.channels c, conversion.msbAlignFlag = false ∨
      conversion.bitdepthInput = conversion.bitdepthOutput ∨
      ShiftedOut conversion.bits conversion.bitdepthInput conversion.bitdepthOutput x := by
    intro c hc x hx
    have heq := List.map_inj_left.mp (hchannels c) x hx
    dsimp only at heq
    rw [visits_eq_four ⟨hformat, hc⟩] at heq
    exact convertSample_four_iff.mp heq
  by_cases hflag : conversion.msbAlignFlag = false
  · exact .inl hflag
  · by_cases hdepth : conversion.bitdepthInput = conversion.bitdepthOutput
    · exact .inr (.inl hdepth)
    · exact .inr (.inr fun c hc x hx =>
        ((hfour c hc x hx).resolve_left hflag).resolve_left hdepth)

theorem ShiftsOnce.convertSample_visits (h : conversion.ShiftsOnce) {c : Fin 3} {x : ℕ}
    (hx : x ∈ conversion.image.channels c) :
    (convertSample conversion.bits conversion.bitdepthInput conversion.bitdepthOutput
        conversion.msbAlignFlag)^[visits conversion.image.format c] x =
      convertSample conversion.bits conversion.bitdepthInput conversion.bitdepthOutput
        conversion.msbAlignFlag x := by
  by_cases hchroma : conversion.image.format = .YUV420 ∧ c ≠ 0
  · rw [visits_eq_four hchroma, convertSample_four_iff]
    have hrest := h.resolve_left (not_not.mpr hchroma.1)
    rcases hrest with hflag | hdepth | hshift
    · exact .inl hflag
    · exact .inr (.inl hdepth)
    · exact .inr (.inr (hshift c hchroma.2 x hx))
  · rw [visits_eq_one hchroma]
    rfl

/-- A raised sample is lowered to itself, however often it is visited. -/
theorem ShiftsOnce.lower_raise (h : conversion.ShiftsOnce)
    (hflag : conversion.msbAlignFlag = true)
    (hle : conversion.bitdepthInput ≤ conversion.bitdepthOutput) {c : Fin 3} {x : ℕ}
    (hx : x ∈ conversion.image.channels c) (hlt : x < 2 ^ conversion.bitdepthInput) :
    (convertSample conversion.bits conversion.bitdepthOutput conversion.bitdepthInput
        true)^[visits conversion.image.format c]
      ((convertSample conversion.bits conversion.bitdepthInput conversion.bitdepthOutput
        true)^[visits conversion.image.format c] x) = x := by
  have honce := h.convertSample_visits hx
  rw [hflag] at honce
  rw [honce]
  have hraise := convertSample_lower_raise hle conversion.output_le hlt
  by_cases hchroma : conversion.image.format = .YUV420 ∧ c ≠ 0
  · rw [visits_eq_four hchroma]
    have hrest := (h.resolve_left (not_not.mpr hchroma.1)).resolve_left (by rw [hflag]; decide)
    have hlower : (convertSample conversion.bits conversion.bitdepthOutput
          conversion.bitdepthInput true)^[4]
        (convertSample conversion.bits conversion.bitdepthInput conversion.bitdepthOutput true x) =
        convertSample conversion.bits conversion.bitdepthOutput conversion.bitdepthInput true
        (convertSample conversion.bits conversion.bitdepthInput conversion.bitdepthOutput
          true x) := by
      rw [convertSample_four_iff]
      by_cases hdepth : conversion.bitdepthOutput = conversion.bitdepthInput
      · exact .inr (.inl hdepth)
      · -- the sample is zero
        have hshift := hrest.resolve_left (Ne.symm hdepth) c hchroma.2 x hx
        have hzero := eq_zero_of_shiftedOut (by omega) conversion.output_le hlt hshift
        refine .inr (.inr ?_)
        unfold ShiftedOut
        rw [if_pos hle, hzero]
        unfold convertSample
        rw [if_neg (by omega), if_pos rfl, Nat.zero_mul, Nat.zero_mod]
        positivity
    rw [hlower, hraise]
  · rw [visits_eq_one hchroma]
    exact hraise

theorem ShiftsOnce.planewise (h : conversion.ShiftsOnce) : conversion.Planewise where
  converts := by
    refine ⟨_, EvenImage.convertBitdepth_eq conversion.input_le conversion.output_le, rfl, rfl, rfl,
      ?_⟩
    intro c
    exact List.map_inj_left.mpr fun x hx => h.convertSample_visits hx
  restores := by
    intro hflag hle hsamples
    refine ⟨_, EvenImage.convertBitdepth_eq conversion.input_le conversion.output_le, ?_⟩
    rw [EvenImage.convertBitdepth_eq conversion.output_le conversion.input_le]
    have hchannels : ∀ c, ((conversion.image.channels c).map
          (convertSample conversion.bits conversion.bitdepthInput conversion.bitdepthOutput
            true)^[visits conversion.image.format c]).map
          (convertSample conversion.bits conversion.bitdepthOutput conversion.bitdepthInput
            true)^[visits conversion.image.format c] = conversion.image.channels c := by
      intro c
      rw [List.map_map]
      conv_rhs => rw [← List.map_id (conversion.image.channels c)]
      exact List.map_inj_left.mpr fun x hx => h.lower_raise hflag hle hx (hsamples c x hx)
    unfold EvenImage.mapChannels
    dsimp only
    simp only [hchannels]
  chroma := by
    intro hformat
    obtain ⟨up, hup, hshared⟩ := EvenImage.exists_convertYUV420ToYUV444 hformat
    exact ⟨up, hup, hshared.convertYUV444ToYUV420 hformat conversion.sample_lt⟩
  upsamples := by
    have hlt := conversion.k_lt
    exact EvenImage.exists_upsampleLoop conversion.image (by omega)

end ImageConversion

/-- The conversions act on the planes, but for the shift of the bit depth in 4:2:0 images, which
is right only for chroma samples that it shifts to zero. -/
theorem imageConversion_planewise_iff (conversion : ImageConversion) :
    conversion.Planewise ↔
      conversion.image.format ≠ .YUV420 ∨ conversion.msbAlignFlag = false ∨
        conversion.bitdepthInput = conversion.bitdepthOutput ∨
        ∀ c ≠ 0, ∀ x ∈ conversion.image.channels c,
          if conversion.bitdepthOutput ≤ conversion.bitdepthInput then
            x < 2 ^ (conversion.bitdepthInput - conversion.bitdepthOutput)
          else
            2 ^ conversion.bits ∣ x * 2 ^ (conversion.bitdepthOutput - conversion.bitdepthInput) :=
  ⟨ImageConversion.shiftsOnce_of_converts, ImageConversion.ShiftsOnce.planewise⟩

/-- A 4:2:0 image with chroma samples of 100, whose bit depth is lowered from ten to eight. -/
def loweredChroma : ImageConversion where
  bits := 16
  bits_mem := by decide
  image :=
    { width := 2
      height := 2
      format := .YUV420
      channels := fun c => component [0, 0, 0, 0] [100] c
      format_ne := by decide
      width_dvd := by decide
      height_dvd := by decide
      length_eq := by decide }
  sample_lt := by decide
  bitdepthInput := 10
  bitdepthOutput := 8
  input_le := by decide
  output_le := by decide
  msbAlignFlag := true
  k := 1
  k_lt := by decide

theorem not_planewise_loweredChroma : ¬loweredChroma.Planewise := by
  intro h
  obtain ⟨image', himage', -, -, -, hchannels⟩ := h.converts
  rw [EvenImage.convertBitdepth_eq (by decide) (by decide)] at himage'
  obtain rfl := Option.some.inj himage'
  have hchroma := hchannels 1
  exact absurd hchroma (by decide)

end V3C

import V3C.Packing.AuxiliaryPlacement

/-! The occupancy map at a coarser precision: one sample for each block of the source. -/
namespace V3C

/-- The luma plane of a picture of the occupancy video. -/
structure PCCImageOccupancyMap where
  width : ℕ
  height : ℕ
  channel : ℕ × ℕ → UInt8

namespace PCCImageOccupancyMap

/-- A new picture, with all samples zero. -/
def resize (width height : ℕ) : PCCImageOccupancyMap where
  width := width
  height := height
  channel := fun _ => 0

def getValue (image : PCCImageOccupancyMap) (pixel : ℕ × ℕ) : Option UInt8 :=
  if pixel.1 < image.width ∧ pixel.2 < image.height then some (image.channel pixel) else none

def setValue (image : PCCImageOccupancyMap) (pixel : ℕ × ℕ) (value : UInt8) :
    Option PCCImageOccupancyMap :=
  if pixel.1 < image.width ∧ pixel.2 < image.height then
    some { image with channel := Function.update image.channel pixel value }
  else none

end PCCImageOccupancyMap

/-- The first plane of a decoded frame, whose rows are `linesize` samples apart. -/
structure AVFrame where
  width : ℕ
  height : ℕ
  linesize : ℕ
  data : List UInt8
  width_le : width ≤ linesize
  height_le : height * linesize ≤ data.length

namespace AVFrame

variable {frame : AVFrame} {pixel pixel' : ℕ × ℕ}

/-- The place of a pixel of the image in the plane. -/
theorem index_lt (hx : pixel.1 < frame.width) (hy : pixel.2 < frame.height) :
    pixel.2 * frame.linesize + pixel.1 < frame.data.length := by
  have hwidth := frame.width_le
  calc pixel.2 * frame.linesize + pixel.1 < (pixel.2 + 1) * frame.linesize := by
        rw [Nat.succ_mul]
        omega
    _ ≤ frame.height * frame.linesize := Nat.mul_le_mul_right _ hy
    _ ≤ frame.data.length := frame.height_le

def getValue (frame : AVFrame) (pixel : ℕ × ℕ) : Option UInt8 :=
  if pixel.1 < frame.width ∧ pixel.2 < frame.height then
    frame.data[pixel.2 * frame.linesize + pixel.1]?
  else none

def setValue (frame : AVFrame) (pixel : ℕ × ℕ) (value : UInt8) : Option AVFrame :=
  if pixel.1 < frame.width ∧ pixel.2 < frame.height then
    some { frame with
      data := frame.data.set (pixel.2 * frame.linesize + pixel.1) value
      height_le := by
        rw [List.length_set]
        exact frame.height_le }
  else none

end AVFrame

namespace PCCTranscoder

/-- `isValue` after the loops over a block. -/
def blockIsValue (getValue : ℕ × ℕ → Option UInt8) (factor u v : ℕ) : Option Bool :=
  (grid factor factor).foldlM (fun isValue block => do
    let pixel ← getValue (u * factor + block.2, v * factor + block.1)
    some (isValue || decide (0 < pixel))) false

/-- The loops over the target picture, `u` in the outer one. -/
def fillTarget {σ : Type} (isValue : ℕ → ℕ → Option Bool)
    (setValue : σ → ℕ × ℕ → UInt8 → Option σ) (targetWidth targetHeigth : ℕ) (target : σ) :
    Option σ :=
  (grid targetHeigth targetWidth).foldlM (fun target pixel => do
    let isValue ← isValue pixel.2 pixel.1
    setValue target (pixel.2, pixel.1) (if isValue then 1 else 0)) target

/-- One frame of `resizeOccupancyMap`. -/
def resizeOccupancyFrame (sourceFrame : PCCImageOccupancyMap) (frameWidth frameHeight factor : ℕ) :
    Option PCCImageOccupancyMap :=
  if factor = 0 then none
  else
    let targetWidth := frameWidth / factor
    let targetHeigth := frameHeight / factor
    fillTarget (blockIsValue sourceFrame.getValue factor) PCCImageOccupancyMap.setValue
      targetWidth targetHeigth (.resize targetWidth targetHeigth)

/-- `PCCTranscoder::resizeOccupancyMap`; the target video has a new frame for each source frame. -/
def resizeOccupancyMap (sourceVideo : List PCCImageOccupancyMap)
    (frameWidth frameHeight factor : ℕ) : Option (List PCCImageOccupancyMap) :=
  sourceVideo.mapM fun sourceFrame =>
    resizeOccupancyFrame sourceFrame frameWidth frameHeight factor

/-- `PCCTranscoder::resize_frame2`, where `filled` is what `avpicture_fill` makes of the output
frame for the resized width and height. -/
def resize_frame2 (input_frame filled : AVFrame) (factor : ℕ) : Option AVFrame :=
  if factor = 0 then none
  else
    fillTarget
      (fun u v => do
        -- a sample that is read and not used
        let _pixel ← input_frame.getValue (u, v)
        blockIsValue input_frame.getValue factor u v)
      AVFrame.setValue (input_frame.width / factor) (input_frame.height / factor) filled

end PCCTranscoder

/-- Downscaling keeps what is occupied: a source sample that is not zero lies in a block whose
target sample is not zero, and only the blocks of such samples get one. -/
structure Conservative (source : ℕ × ℕ → Option UInt8) (width height factor : ℕ)
    (target : ℕ × ℕ → Option UInt8) : Prop where
  kept : ∀ x y p, x < width → y < height → source (x, y) = some p → 0 < p →
    x / factor < width / factor ∧ y / factor < height / factor ∧
      ∃ q, target (x / factor, y / factor) = some q ∧ 0 < q
  made : ∀ u v q, u < width / factor → v < height / factor → target (u, v) = some q → 0 < q →
    ∃ u1 v1 p, u1 < factor ∧ v1 < factor ∧
      source (u * factor + u1, v * factor + v1) = some p ∧ 0 < p

/-- No occupied sample lies beyond the last whole block of a row or a column. -/
def WholeBlocks (source : ℕ × ℕ → Option UInt8) (width height factor : ℕ) : Prop :=
  ∀ x y p, x < width → y < height → source (x, y) = some p → 0 < p →
    x < width / factor * factor ∧ y < height / factor * factor

open Cells PCCTranscoder

theorem PCCImageOccupancyMap.lawful : Lawful getValue setValue where
  put_isSome image pixel value := by
    unfold getValue setValue
    split_ifs <;> rfl
  get_put_self {image image' pixel value} h := by
    unfold setValue at h
    split_ifs at h with hin
    obtain rfl := Option.some.inj h
    simp [getValue, hin]
  get_put_ne {image image' pixel pixel' value} h hne := by
    unfold setValue at h
    split_ifs at h
    obtain rfl := Option.some.inj h
    simp [getValue, Function.update_of_ne hne]

theorem AVFrame.index_inj {frame : AVFrame} {pixel pixel' : ℕ × ℕ} (hx : pixel.1 < frame.width)
    (hx' : pixel'.1 < frame.width)
    (h : pixel.2 * frame.linesize + pixel.1 = pixel'.2 * frame.linesize + pixel'.1) :
    pixel = pixel' := by
  have hwidth := frame.width_le
  have hrows := congrArg (· / frame.linesize) h
  simp only [Nat.mul_comm _ frame.linesize, Nat.mul_add_div (show 0 < frame.linesize by omega),
    Nat.div_eq_of_lt (show pixel.1 < frame.linesize by omega),
    Nat.div_eq_of_lt (show pixel'.1 < frame.linesize by omega), Nat.add_zero] at hrows
  rw [hrows] at h
  exact Prod.ext (Nat.add_left_cancel h) hrows

theorem AVFrame.lawful : Lawful getValue setValue where
  put_isSome frame pixel value := by
    unfold getValue setValue
    split_ifs with hin
    · rw [List.getElem?_eq_getElem (index_lt hin.1 hin.2)]
      rfl
    · rfl
  get_put_self {frame frame' pixel value} h := by
    unfold setValue at h
    split_ifs at h with hin
    obtain rfl := Option.some.inj h
    unfold getValue
    rw [if_pos hin]
    exact List.getElem?_set_self (index_lt hin.1 hin.2)
  get_put_ne {frame frame' pixel pixel' value} h hne := by
    unfold setValue at h
    split_ifs at h with hin
    obtain rfl := Option.some.inj h
    unfold getValue
    dsimp only
    split_ifs with hin'
    · exact List.getElem?_set_ne fun hindex => hne (index_inj hin'.1 hin.1 hindex.symm)
    · rfl

section Blocks

variable {source : ℕ × ℕ → Option UInt8} {factor u v : ℕ}

theorem foldlM_isValue (blocks : List (ℕ × ℕ)) (isValue : Bool)
    (h : ∀ b ∈ blocks, (source (u * factor + b.2, v * factor + b.1)).isSome) :
    ∃ result, blocks.foldlM (fun isValue block => do
        let pixel ← source (u * factor + block.2, v * factor + block.1)
        some (isValue || decide (0 < pixel))) isValue = some result ∧
      (result = true ↔ isValue = true ∨
        ∃ b ∈ blocks, ∃ p, source (u * factor + b.2, v * factor + b.1) = some p ∧ 0 < p) := by
  induction blocks generalizing isValue with
  | nil => exact ⟨isValue, rfl, by simp⟩
  | cons b blocks ih =>
    obtain ⟨p, hp⟩ := Option.isSome_iff_exists.mp (h b List.mem_cons_self)
    obtain ⟨result, hresult, hiff⟩ := ih (isValue || decide (0 < p)) fun c hc =>
      h c (List.mem_cons_of_mem b hc)
    refine ⟨result, ?_, ?_⟩
    · rw [List.foldlM_cons, hp]
      exact hresult
    · rw [hiff]
      simp [hp, or_assoc]

/-- The loops over a block find its occupied samples. -/
theorem exists_blockIsValue
    (h : ∀ u1 v1, u1 < factor → v1 < factor → (source (u * factor + u1, v * factor + v1)).isSome) :
    ∃ result, blockIsValue source factor u v = some result ∧
      (result = true ↔ ∃ u1 v1 p, u1 < factor ∧ v1 < factor ∧
        source (u * factor + u1, v * factor + v1) = some p ∧ 0 < p) := by
  obtain ⟨result, hresult, hiff⟩ := foldlM_isValue (grid factor factor) false
    fun b hb => h b.2 b.1 (mem_grid.mp hb).2 (mem_grid.mp hb).1
  refine ⟨result, hresult, hiff.trans ?_⟩
  constructor
  · rintro (hfalse | ⟨⟨v1, u1⟩, hb, p, hp, hpos⟩)
    · exact absurd hfalse nofun
    · exact ⟨u1, v1, p, (mem_grid.mp hb).2, (mem_grid.mp hb).1, hp, hpos⟩
  · rintro ⟨u1, v1, p, hu1, hv1, hp, hpos⟩
    exact .inr ⟨(v1, u1), mem_grid.mpr ⟨hv1, hu1⟩, p, hp, hpos⟩

end Blocks

section Target

variable {σ : Type} {getValue : σ → ℕ × ℕ → Option UInt8}
  {setValue : σ → ℕ × ℕ → UInt8 → Option σ} {isValue : ℕ → ℕ → Option Bool}
  {targetWidth targetHeigth : ℕ}

def targetSample (isValue : ℕ → ℕ → Option Bool) (pixel : ℕ × ℕ) : UInt8 :=
  if (isValue pixel.1 pixel.2).getD false then 1 else 0

/-- The cells that the loops write, each once. -/
theorem exists_fillTarget (law : Lawful getValue setValue) (isValue : ℕ → ℕ → Option Bool)
    (target : σ)
    (hisValue : ∀ u v, u < targetWidth → v < targetHeigth → (isValue u v).isSome)
    (hcells : ∀ u v, u < targetWidth → v < targetHeigth → (getValue target (u, v)).isSome) :
    ∃ after, fillTarget isValue setValue targetWidth targetHeigth target = some after ∧
      ∀ u v, u < targetWidth → v < targetHeigth →
        getValue after (u, v) = some (targetSample isValue (u, v)) := by
  have hwrites : fillTarget isValue setValue targetWidth targetHeigth target =
      writeAll setValue ((grid targetHeigth targetWidth).map
        fun p => ((p.2, p.1), targetSample isValue (p.2, p.1))) target := by
    apply foldlM_eq_writeAll
    intro p hp target
    obtain ⟨value, hvalue⟩ := Option.isSome_iff_exists.mp
      (hisValue p.2 p.1 (mem_grid.mp hp).2 (mem_grid.mp hp).1)
    unfold targetSample
    rw [hvalue]
    rfl
  have hentries : ∀ entry ∈ (grid targetHeigth targetWidth).map
      fun p => ((p.2, p.1), targetSample isValue (p.2, p.1)),
      (getValue target entry.1).isSome := by
    intro entry hentry
    obtain ⟨p, hp, rfl⟩ := List.mem_map.mp hentry
    exact hcells p.2 p.1 (mem_grid.mp hp).2 (mem_grid.mp hp).1
  obtain ⟨after, hafter⟩ := law.exists_writeAll hentries
  refine ⟨after, hwrites.trans hafter, fun u v hu hv => ?_⟩
  have hnodup : (((grid targetHeigth targetWidth).map
      fun p => ((p.2, p.1), targetSample isValue (p.2, p.1))).map Prod.fst).Nodup := by
    rw [List.map_map]
    exact (nodup_grid _ _).map fun a b h => Prod.ext (Prod.mk.inj h).2 (Prod.mk.inj h).1
  exact law.get_of_mem hafter hnodup
    (List.mem_map.mpr ⟨(v, u), mem_grid.mpr ⟨hv, hu⟩, rfl⟩)

end Target

section Conservative

variable {σ : Type} {getValue : σ → ℕ × ℕ → Option UInt8}
  {setValue : σ → ℕ × ℕ → UInt8 → Option σ} {source : ℕ × ℕ → Option UInt8}
  {isValue : ℕ → ℕ → Option Bool} {width height factor : ℕ}

/-- The pixels of a whole block lie in the picture. -/
theorem block_lt {u a n factor : ℕ} (hu : u < n / factor) (ha : a < factor) :
    u * factor + a < n := by
  calc u * factor + a < (u + 1) * factor := by rw [Nat.succ_mul]; omega
    _ ≤ n / factor * factor := Nat.mul_le_mul_right _ hu
    _ ≤ n := Nat.div_mul_le_self n factor

/-- Where a source sample is lost, it lies beyond the last whole block. -/
theorem conservative_iff_wholeBlocks (hfactor : 0 < factor) {after : σ}
    (hvalue : ∀ u v, u < width / factor → v < height / factor →
      ∃ value, isValue u v = some value ∧
        (value = true ↔ ∃ u1 v1 p, u1 < factor ∧ v1 < factor ∧
          source (u * factor + u1, v * factor + v1) = some p ∧ 0 < p))
    (hafter : ∀ u v, u < width / factor → v < height / factor →
      getValue after (u, v) = some (targetSample isValue (u, v))) :
    Conservative source width height factor (getValue after) ↔
      WholeBlocks source width height factor := by
  constructor
  · intro h x y p hx hy hp hpos
    obtain ⟨hu, hv, -⟩ := h.kept x y p hx hy hp hpos
    exact ⟨(Nat.div_lt_iff_lt_mul hfactor).mp hu, (Nat.div_lt_iff_lt_mul hfactor).mp hv⟩
  · intro h
    constructor
    · intro x y p hx hy hp hpos
      obtain ⟨hxin, hyin⟩ := h x y p hx hy hp hpos
      have hu := (Nat.div_lt_iff_lt_mul hfactor).mpr hxin
      have hv := (Nat.div_lt_iff_lt_mul hfactor).mpr hyin
      obtain ⟨value, hsome, hiff⟩ := hvalue _ _ hu hv
      have htrue : value = true := hiff.mpr ⟨x % factor, y % factor, p,
        Nat.mod_lt _ hfactor, Nat.mod_lt _ hfactor,
        by rw [Nat.div_add_mod', Nat.div_add_mod', hp], hpos⟩
      refine ⟨hu, hv, 1, ?_, by decide⟩
      rw [hafter _ _ hu hv, targetSample, hsome, htrue]
      rfl
    · intro u v q hu hv hq hpos
      obtain ⟨value, hsome, hiff⟩ := hvalue u v hu hv
      rw [hafter u v hu hv, targetSample, hsome] at hq
      cases value with
      | true => exact hiff.mp rfl
      | false =>
        obtain rfl := Option.some.inj hq
        exact absurd hpos (by decide)

end Conservative

/-- The loops of either function, on pictures that have the pixels they reach. -/
theorem exists_downscaled {σ : Type} {getValue : σ → ℕ × ℕ → Option UInt8}
    {setValue : σ → ℕ × ℕ → UInt8 → Option σ} (law : Lawful getValue setValue)
    {source : ℕ × ℕ → Option UInt8} {isValue : ℕ → ℕ → Option Bool} {width height factor : ℕ}
    (hfactor : 0 < factor) (target : σ)
    (hsource : ∀ x y, x < width → y < height → (source (x, y)).isSome)
    (hisValue : ∀ u v, u < width / factor → v < height / factor →
      isValue u v = blockIsValue source factor u v)
    (htarget : ∀ u v, u < width / factor → v < height / factor →
      (getValue target (u, v)).isSome) :
    ∃ after, fillTarget isValue setValue (width / factor) (height / factor) target = some after ∧
      (Conservative source width height factor (getValue after) ↔
        WholeBlocks source width height factor) := by
  have hvalue (u v : ℕ) (hu : u < width / factor) (hv : v < height / factor) :
      ∃ value, isValue u v = some value ∧
        (value = true ↔ ∃ u1 v1 p, u1 < factor ∧ v1 < factor ∧
          source (u * factor + u1, v * factor + v1) = some p ∧ 0 < p) := by
    rw [hisValue u v hu hv]
    exact exists_blockIsValue fun u1 v1 hu1 hv1 => hsource _ _ (block_lt hu hu1) (block_lt hv hv1)
  have hsome (u v : ℕ) (hu : u < width / factor) (hv : v < height / factor) :
      (isValue u v).isSome := by
    obtain ⟨value, hsome, -⟩ := hvalue u v hu hv
    rw [hsome]
    rfl
  obtain ⟨after, hfill, hafter⟩ := exists_fillTarget law isValue target hsome htarget
  exact ⟨after, hfill, conservative_iff_wholeBlocks hfactor hvalue hafter⟩

theorem exists_resizeOccupancyFrame (sourceFrame : PCCImageOccupancyMap) {factor : ℕ}
    (hfactor : 0 < factor) :
    ∃ targetFrame, resizeOccupancyFrame sourceFrame sourceFrame.width sourceFrame.height factor =
        some targetFrame ∧
      (Conservative sourceFrame.getValue sourceFrame.width sourceFrame.height factor
          targetFrame.getValue ↔
        WholeBlocks sourceFrame.getValue sourceFrame.width sourceFrame.height factor) := by
  unfold resizeOccupancyFrame
  rw [if_neg hfactor.ne']
  apply exists_downscaled PCCImageOccupancyMap.lawful hfactor
  · intro x y hx hy
    simp [PCCImageOccupancyMap.getValue, hx, hy]
  · exact fun _ _ _ _ => rfl
  · intro u v hu hv
    simp [PCCImageOccupancyMap.getValue, PCCImageOccupancyMap.resize, hu, hv]

/-- The same for the frames of the decoder library, where the factor is 2. -/
theorem exists_resize_frame2 (input_frame filled : AVFrame) {factor : ℕ} (hfactor : 0 < factor)
    (hwidth : filled.width = input_frame.width / factor)
    (hheight : filled.height = input_frame.height / factor) :
    ∃ output_frame, resize_frame2 input_frame filled factor = some output_frame ∧
      (Conservative input_frame.getValue input_frame.width input_frame.height factor
          output_frame.getValue ↔
        WholeBlocks input_frame.getValue input_frame.width input_frame.height factor) := by
  have hread (frame : AVFrame) (x y : ℕ) (hx : x < frame.width) (hy : y < frame.height) :
      (frame.getValue (x, y)).isSome := by
    unfold AVFrame.getValue
    rw [if_pos ⟨hx, hy⟩, List.getElem?_eq_getElem (@AVFrame.index_lt frame (x, y) hx hy)]
    rfl
  unfold resize_frame2
  rw [if_neg hfactor.ne']
  apply exists_downscaled AVFrame.lawful hfactor
  · exact hread input_frame
  · intro u v hu hv
    obtain ⟨p, hp⟩ := Option.isSome_iff_exists.mp (hread input_frame u v
      (hu.trans_le (Nat.div_le_self _ _)) (hv.trans_le (Nat.div_le_self _ _)))
    rw [hp]
    rfl
  · intro u v hu hv
    exact hread filled u v (hwidth ▸ hu) (hheight ▸ hv)

/-- The loops complete and each target frame is conservative. -/
def DownscalesConservatively (sourceVideo : List PCCImageOccupancyMap)
    (frameWidth frameHeight factor : ℕ) : Prop :=
  ∃ targetVideo, resizeOccupancyMap sourceVideo frameWidth frameHeight factor = some targetVideo ∧
    List.Forall₂ (fun sourceFrame targetFrame =>
      Conservative sourceFrame.getValue frameWidth frameHeight factor targetFrame.getValue)
      sourceVideo targetVideo

theorem resizeOccupancyMap_cons (sourceFrame : PCCImageOccupancyMap)
    (sourceVideo : List PCCImageOccupancyMap) (frameWidth frameHeight factor : ℕ) :
    resizeOccupancyMap (sourceFrame :: sourceVideo) frameWidth frameHeight factor =
      (resizeOccupancyFrame sourceFrame frameWidth frameHeight factor).bind fun targetFrame =>
        (resizeOccupancyMap sourceVideo frameWidth frameHeight factor).map (targetFrame :: ·) := by
  unfold resizeOccupancyMap
  rw [List.mapM_cons]
  cases resizeOccupancyFrame sourceFrame frameWidth frameHeight factor with
  | none => rfl
  | some targetFrame =>
    cases sourceVideo.mapM fun f => resizeOccupancyFrame f frameWidth frameHeight factor <;> rfl

theorem downscalesConservatively_cons {sourceFrame : PCCImageOccupancyMap}
    {sourceVideo : List PCCImageOccupancyMap} {factor : ℕ} (hfactor : 0 < factor) :
    DownscalesConservatively (sourceFrame :: sourceVideo) sourceFrame.width sourceFrame.height
        factor ↔
      WholeBlocks sourceFrame.getValue sourceFrame.width sourceFrame.height factor ∧
        DownscalesConservatively sourceVideo sourceFrame.width sourceFrame.height factor := by
  obtain ⟨targetFrame, hframe, hiff⟩ := exists_resizeOccupancyFrame sourceFrame hfactor
  unfold DownscalesConservatively
  rw [resizeOccupancyMap_cons, hframe, Option.bind_some, ← hiff]
  constructor
  · rintro ⟨targetVideo, hvideo, hall⟩
    obtain ⟨rest, hrest, rfl⟩ := Option.map_eq_some_iff.mp hvideo
    obtain ⟨hfirst, hothers⟩ := List.forall₂_cons.mp hall
    exact ⟨hfirst, rest, hrest, hothers⟩
  · rintro ⟨hfirst, rest, hrest, hothers⟩
    exact ⟨targetFrame :: rest, by rw [hrest]; rfl, List.Forall₂.cons hfirst hothers⟩

/-- Downscaling is conservative exactly where the factor is positive and no occupied sample lies
in an incomplete block at the right or at the bottom. -/
theorem downscalesConservatively_iff {sourceVideo : List PCCImageOccupancyMap}
    {frameWidth frameHeight : ℕ}
    (hsize : ∀ frame ∈ sourceVideo, frame.width = frameWidth ∧ frame.height = frameHeight)
    (factor : ℕ) :
    DownscalesConservatively sourceVideo frameWidth frameHeight factor ↔
      (sourceVideo ≠ [] → 0 < factor) ∧
        ∀ frame ∈ sourceVideo, WholeBlocks frame.getValue frameWidth frameHeight factor := by
  rcases Nat.eq_zero_or_pos factor with rfl | hfactor
  · cases sourceVideo with
    | nil => exact ⟨fun _ => ⟨fun h => absurd rfl h, by simp⟩, fun _ => ⟨[], rfl, .nil⟩⟩
    | cons sourceFrame sourceVideo =>
      constructor
      · rintro ⟨targetVideo, hvideo, -⟩
        rw [resizeOccupancyMap_cons] at hvideo
        exact absurd hvideo nofun
      · intro h
        exact absurd (h.1 (List.cons_ne_nil _ _)) (lt_irrefl 0)
  rw [and_iff_right fun _ => hfactor]
  induction sourceVideo with
  | nil => exact ⟨fun _ => by simp, fun _ => ⟨[], rfl, .nil⟩⟩
  | cons sourceFrame sourceVideo ih =>
    obtain ⟨rfl, rfl⟩ := hsize sourceFrame List.mem_cons_self
    rw [downscalesConservatively_cons hfactor,
      ih fun frame hframe => hsize frame (List.mem_cons_of_mem _ hframe), List.forall_mem_cons]

/-- Four occupied samples in two whole blocks of precision two. -/
theorem downscalesConservatively_four :
    DownscalesConservatively [⟨4, 2, fun _ => 1⟩] 4 2 2 :=
  (downscalesConservatively_iff (by simp) 2).mpr
    ⟨fun _ => Nat.two_pos, fun _ _ _ _ _ hx hy _ _ => ⟨hx, hy⟩⟩

/-- A map of three columns loses the last one at half the precision. -/
theorem not_downscalesConservatively_three :
    ¬ DownscalesConservatively [⟨3, 2, fun _ => 1⟩] 3 2 2 := by
  rintro ⟨targetVideo, hvideo, hall⟩
  cases hall with
  | cons hfirst hothers =>
    have hkept := (hfirst.kept 2 0 1 (by decide) (by decide) rfl (by decide)).1
    exact absurd hkept (by decide)

end V3C

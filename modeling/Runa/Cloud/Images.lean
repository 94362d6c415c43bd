import Mathlib.Data.List.Forall2
import Runa.Fallible.Steps
import Runa.Word.Checked

/-!
# Images for the cloud

`downscale`, `nn_resize` and `prepare_images` of `runa-cloud/src/media.rs`.
The dimensions and what is computed of them are `u32`; a product that is
larger, and an index out of range, end the program.  An image is halved until
it is within the limits, and comes out whole exactly if the products of its
first halving are no larger, or if it needs none and its bytes are those of
its dimensions.
-/

namespace Runa.Cloud.Images

open Runa.Fallible.Steps (bind_eq_ok foldlM_range_ok mapError_eq_ok
  step_of_foldlM)
open Runa.Word.Checked (Fault Result add div mul)

/-! ## The arithmetic -/

def u32 : Nat :=
  2 ^ 32

/-- What ends the program. -/
inductive Panic where
  | arithmetic (fault : Fault)
  | range
deriving DecidableEq

def checked {α : Type} (result : Result α) : Except Panic α :=
  result.mapError .arithmetic

/-- `bytes[start..stop]` -/
def slice (bytes : List UInt8) (start stop : Nat) :
    Except Panic (List UInt8) :=
  if start ≤ stop ∧ stop ≤ bytes.length then
    .ok ((bytes.take stop).drop start)
  else .error .range

/-- `copy_from_slice` into the bytes from an offset on. -/
def writeAt (bytes : List UInt8) (start : Nat) (values : List UInt8) :
    Except Panic (List UInt8) :=
  if start + values.length ≤ bytes.length then
    .ok (bytes.take start ++ values ++ bytes.drop (start + values.length))
  else .error .range

/-! ## Resizing -/

section

variable (src : List UInt8) (w h nw nh : Nat)

/-- The copy of one pixel. -/
def copyPixel (y sy : Nat) (out : List UInt8) (x : Nat) :
    Except Panic (List UInt8) := do
  let sx ← checked (do div (← mul u32 x w) nw)
  let si ← checked (do mul u32 (← add u32 (← mul u32 sy w) sx) 3)
  let di ← checked (do mul u32 (← add u32 (← mul u32 y nw) x) 3)
  if si + 2 < src.length then
    let pixel ← slice src si (si + 3)
    writeAt out di pixel
  else return out

def copyRow (out : List UInt8) (y : Nat) : Except Panic (List UInt8) := do
  let sy ← checked (do div (← mul u32 y h) nh)
  (List.range nw).foldlM (copyPixel src w nw y sy) out

def nnResize : Except Panic (List UInt8) := do
  let size ← checked (do mul u32 (← mul u32 nw nh) 3)
  (List.range nh).foldlM (copyRow src w h nw nh) (List.replicate size 0)

end

/-! ## Images -/

structure MediaLimits where
  maxImages : Nat
  maxEdge : Nat
  maxBytes : Nat
deriving DecidableEq, Repr

/-- An image with dimensions of `u32`. -/
structure RawImage where
  width : Nat
  height : Nat
  rgb : List UInt8
  width_lt : width < u32
  height_lt : height < u32

structure PreparedImage where
  width : Nat
  height : Nat
  rgb : List UInt8
deriving DecidableEq, Repr

def halve (edge : Nat) : Nat :=
  max (edge / 2) 1

theorem halve_pos (edge : Nat) : 0 < halve edge :=
  Nat.lt_of_lt_of_le Nat.one_pos (Nat.le_max_right _ _)

theorem halve_le {edge : Nat} (positive : 0 < edge) : halve edge ≤ edge :=
  Nat.max_le.mpr ⟨Nat.div_le_self _ _, positive⟩

/-- An image is too large, and can be made smaller. -/
def Large (limits : MediaLimits) (w h : Nat) (rgb : List UInt8) : Prop :=
  (limits.maxEdge < w ∨ limits.maxEdge < h ∨
    limits.maxBytes < rgb.length) ∧ (1 < w ∨ 1 < h)

instance (limits : MediaLimits) (w h : Nat) (rgb : List UInt8) :
    Decidable (Large limits w h rgb) :=
  inferInstanceAs (Decidable (_ ∧ _))

/-- The loop of `downscale`. -/
def shrink (limits : MediaLimits) (w h : Nat) (rgb : List UInt8) :
    Except Panic PreparedImage :=
  if _large : Large limits w h rgb then
    match nnResize rgb w h (halve w) (halve h) with
    | .error panic => .error panic
    | .ok smaller => shrink limits (halve w) (halve h) smaller
  else .ok ⟨w, h, rgb⟩
termination_by (w - 1) + (h - 1)
decreasing_by
  rcases _large.2 with wide | high
  · simp only [halve]
    omega
  · simp only [halve]
    omega

/-- Shrink RGB so `max(w,h) ≤ max_edge` and `rgb.len() ≤ max_bytes`. -/
def downscale (image : RawImage) (limits : MediaLimits) :
    Except Panic PreparedImage :=
  shrink limits (max image.width 1) (max image.height 1) image.rgb

inductive MediaError where
  | tooManyImages (n max : Nat)
  | emptyImage
deriving DecidableEq, Repr

/-- An error, or the end of the program. -/
inductive Failure where
  | media (error : MediaError)
  | panic (panic : Panic)
deriving DecidableEq

def RawImage.isEmpty (image : RawImage) : Bool :=
  image.rgb.length < 3 ∨ image.width = 0 ∨ image.height = 0

def prepareAll (limits : MediaLimits) :
    List RawImage → Except Failure (List PreparedImage)
  | [] => .ok []
  | image :: images => do
    if image.isEmpty then .error (.media .emptyImage)
    let prepared ← (downscale image limits).mapError .panic
    let others ← prepareAll limits images
    return prepared :: others

def prepareImages (images : List RawImage) (limits : MediaLimits) :
    Except Failure (List PreparedImage) :=
  if limits.maxImages < images.length then
    .error (.media (.tooManyImages images.length limits.maxImages))
  else prepareAll limits images

/-! ## Pixels -/

/-- Three bytes. -/
def pixel (bytes : List UInt8) (index : Nat) : List UInt8 :=
  (bytes.drop (index * 3)).take 3

theorem length_pixel {bytes : List UInt8} {index : Nat}
    (within : (index + 1) * 3 ≤ bytes.length) :
    (pixel bytes index).length = 3 := by
  rw [pixel, List.length_take, List.length_drop]
  omega

theorem slice_pixel {bytes : List UInt8} {index : Nat}
    (within : (index + 1) * 3 ≤ bytes.length) :
    slice bytes (index * 3) (index * 3 + 3) = .ok (pixel bytes index) := by
  have below : index * 3 ≤ index * 3 + 3 ∧ index * 3 + 3 ≤ bytes.length :=
    ⟨Nat.le_add_right _ _, by omega⟩
  rw [slice, if_pos below, pixel, List.drop_take, Nat.add_sub_cancel_left]

/-- A pixel that is written is there, and those in front of it are as they
were. -/
theorem writeAt_pixel {bytes values : List UInt8} {index : Nat}
    (within : (index + 1) * 3 ≤ bytes.length) (three : values.length = 3) :
    ∃ written, writeAt bytes (index * 3) values = .ok written ∧
      written.length = bytes.length ∧ pixel written index = values ∧
        ∀ other < index, pixel written other = pixel bytes other := by
  have below : index * 3 + values.length ≤ bytes.length := by omega
  have front : (bytes.take (index * 3)).length = index * 3 := by
    rw [List.length_take]
    omega
  refine ⟨_, if_pos below, ?_, ?_, ?_⟩
  · rw [List.length_append, List.length_append, front, List.length_drop]
    omega
  · rw [pixel, List.append_assoc, List.drop_left' front,
      List.take_left' three]
  · intro other before
    have inside : other * 3 + 3 ≤ index * 3 := by omega
    rw [pixel, pixel, List.append_assoc,
      List.drop_append_of_le_length (by omega),
      List.take_append_of_le_length (by rw [List.length_drop]; omega),
      List.drop_take, List.take_take, Nat.min_eq_left (by omega)]

/-- Every pixel of an image is one of another image. -/
def Sampled (from' : List UInt8) (count : Nat) (into : List UInt8)
    (count' : Nat) : Prop :=
  ∀ index < count', ∃ other < count, pixel into index = pixel from' other

theorem Sampled.refl (bytes : List UInt8) (count : Nat) :
    Sampled bytes count bytes count :=
  fun index below => ⟨index, below, rfl⟩

theorem Sampled.trans {one two three : List UInt8} {first second third : Nat}
    (front : Sampled one first two second)
    (back : Sampled two second three third) :
    Sampled one first three third := by
  intro index below
  rcases back index below with ⟨middle, within, same⟩
  rcases front middle within with ⟨other, there, same'⟩
  exact ⟨other, there, same.trans same'⟩

/-! ## What fits a `u32` -/

/-- The largest products of a resize are below `2 ^ 32`: the number of bytes,
those of the last row and column, and the offset of the last pixel that is
read. -/
structure Fits (w h nw nh : Nat) : Prop where
  size : nw * nh * 3 < u32
  rows : (nh - 1) * h < u32
  columns : (nw - 1) * w < u32
  source : ((nh - 1) * h / nh * w + (nw - 1) * w / nw) * 3 < u32

theorem checked_eq_ok {α : Type} {result : Result α} {value : α} :
    checked result = .ok value ↔ result = .ok value :=
  mapError_eq_ok

theorem scaled_eq_ok {index edge count value : Nat} :
    checked (do div (← mul u32 index edge) count) = .ok value ↔
      index * edge < u32 ∧ count ≠ 0 ∧ index * edge / count = value := by
  rw [checked_eq_ok]
  simp

theorem offset_eq_ok {row width column value : Nat} :
    checked (do mul u32 (← add u32 (← mul u32 row width) column) 3) =
        .ok value ↔
      (row * width + column) * 3 < u32 ∧
        (row * width + column) * 3 = value := by
  rw [checked_eq_ok]
  simp
  omega

theorem size_eq_ok {w h value : Nat} :
    checked (do mul u32 (← mul u32 w h) 3) = .ok value ↔
      w * h * 3 < u32 ∧ w * h * 3 = value := by
  rw [checked_eq_ok]
  simp
  omega

/-! ## The loops -/

section

variable {src out : List UInt8} {w h nw nh y sy x : Nat}

/-- A pixel that is copied has its products in range. -/
theorem fits_of_copyPixel {next : List UInt8}
    (copied : copyPixel src w nw y sy out x = .ok next) :
    x * w < u32 ∧ (sy * w + x * w / nw) * 3 < u32 := by
  rw [copyPixel, bind_eq_ok] at copied
  rcases copied with ⟨sx, scaled, copied⟩
  rw [bind_eq_ok] at copied
  rcases copied with ⟨si, offset, -⟩
  rcases scaled_eq_ok.mp scaled with ⟨column, -, rfl⟩
  exact ⟨column, (offset_eq_ok.mp offset).1⟩

theorem fits_of_copyRow {next : List UInt8} (positive : 0 < nw)
    (copied : copyRow src w h nw nh out y = .ok next) :
    y * h < u32 ∧ (nw - 1) * w < u32 ∧
      (y * h / nh * w + (nw - 1) * w / nw) * 3 < u32 := by
  rw [copyRow, bind_eq_ok] at copied
  rcases copied with ⟨sy, scaled, ran⟩
  rcases scaled_eq_ok.mp scaled with ⟨row, -, rfl⟩
  have last : nw - 1 ∈ List.range nw :=
    List.mem_range.mpr (Nat.sub_lt positive Nat.one_pos)
  rcases step_of_foldlM ran last with ⟨state, next, step⟩
  exact ⟨row, fits_of_copyPixel step⟩

/-- A resize that comes to its end has its products in range: those of the
last row and column are made. -/
theorem fits_of_nnResize {next : List UInt8} (wide : 0 < nw) (high : 0 < nh)
    (resized : nnResize src w h nw nh = .ok next) : Fits w h nw nh := by
  rw [nnResize, bind_eq_ok] at resized
  rcases resized with ⟨size, sized, ran⟩
  have last : nh - 1 ∈ List.range nh :=
    List.mem_range.mpr (Nat.sub_lt high Nat.one_pos)
  rcases step_of_foldlM ran last with ⟨state, next, step⟩
  rcases fits_of_copyRow wide step with ⟨rows, columns, source⟩
  exact ⟨(size_eq_ok.mp sized).1, rows, columns, source⟩

/-- The place of a cell, row after row. -/
theorem cell_lt {row column width height : Nat} (below : row < height)
    (inside : column < width) : row * width + column < width * height := by
  have rows : (row + 1) * width ≤ height * width :=
    Nat.mul_le_mul_right width below
  rw [Nat.add_mul, Nat.one_mul] at rows
  rw [Nat.mul_comm width height]
  omega

/-- A cell of the smaller image comes from one of the larger image. -/
theorem scaled_lt {index edge count : Nat} (positive : 0 < edge)
    (below : index < count) : index * edge / count < edge :=
  Nat.div_lt_of_lt_mul (Nat.mul_lt_mul_of_pos_right below positive)

theorem scaled_le {index count : Nat} (edge : Nat) (below : index < count) :
    index * edge ≤ (count - 1) * edge :=
  Nat.mul_le_mul_right edge (Nat.le_sub_one_of_lt below)

/-- The bytes of a resize: the first pixels are pixels of the source, if the
source has as many bytes as its dimensions say. -/
structure Filled (src : List UInt8) (w h total : Nat) (index : Nat)
    (out : List UInt8) : Prop where
  length : out.length = total * 3
  sampled : w * h * 3 = src.length → Sampled src (w * h) out index

/-- A pixel is written, or left as it is where the source ends before it. -/
theorem Filled.write {total index cell : Nat}
    (filled : Filled src w h total index out) (room : index < total)
    (inside : cell < w * h) :
    ∃ next, (if cell * 3 + 2 < src.length then do
          let pixel ← slice src (cell * 3) (cell * 3 + 3)
          writeAt out (index * 3) pixel
        else return out) = .ok next ∧
      Filled src w h total (index + 1) next := by
  by_cases there : cell * 3 + 2 < src.length
  · have whole : (cell + 1) * 3 ≤ src.length := by omega
    have room' : (index + 1) * 3 ≤ out.length := by
      rw [filled.length]
      omega
    rcases writeAt_pixel room' (length_pixel whole) with
      ⟨next, written, length, here, before⟩
    refine ⟨next, ?_, length.trans filled.length, ?_⟩
    · rw [if_pos there, slice_pixel whole]
      exact written
    · intro matching other below
      rcases Nat.lt_succ_iff_lt_or_eq.mp below with earlier | rfl
      · rcases filled.sampled matching other earlier with ⟨from', inside, same⟩
        exact ⟨from', inside, (before other earlier).trans same⟩
      · exact ⟨cell, inside, here⟩
  · refine ⟨out, if_neg there, filled.length, ?_⟩
    intro matching
    omega

/-- Where the products are in range, the loops copy one pixel after the
other. -/
theorem copyPixel_filled (fits : Fits w h nw nh) (positive : 0 < w)
    (high : 0 < h) (row : y < nh) (column : x < nw)
    (filled : Filled src w h (nw * nh) (y * nw + x) out) :
    ∃ next, copyPixel src w nw y (y * h / nh) out x = .ok next ∧
      Filled src w h (nw * nh) (y * nw + x + 1) next := by
  have room := cell_lt row column
  have inside := cell_lt (scaled_lt high row) (scaled_lt positive column)
  have columns := scaled_le w column
  have offset : (y * h / nh * w + x * w / nw) * 3 ≤
      ((nh - 1) * h / nh * w + (nw - 1) * w / nw) * 3 := by
    apply Nat.mul_le_mul_right
    apply Nat.add_le_add
    · exact Nat.mul_le_mul_right w (Nat.div_le_div_right (scaled_le h row))
    · exact Nat.div_le_div_right columns
  have scaled : checked (do div (← mul u32 x w) nw) = .ok (x * w / nw) :=
    scaled_eq_ok.mpr ⟨Nat.lt_of_le_of_lt columns fits.columns, by omega, rfl⟩
  have read : checked
      (do mul u32 (← add u32 (← mul u32 (y * h / nh) w) (x * w / nw)) 3) =
        .ok ((y * h / nh * w + x * w / nw) * 3) :=
    offset_eq_ok.mpr ⟨Nat.lt_of_le_of_lt offset fits.source, rfl⟩
  have written : checked (do mul u32 (← add u32 (← mul u32 y nw) x) 3) =
      .ok ((y * nw + x) * 3) := by
    have size := fits.size
    exact offset_eq_ok.mpr ⟨by omega, rfl⟩
  rcases filled.write room inside with ⟨next, stepped, filled⟩
  refine ⟨next, ?_, filled⟩
  rw [copyPixel, bind_eq_ok]
  refine ⟨_, scaled, ?_⟩
  rw [bind_eq_ok]
  refine ⟨_, read, ?_⟩
  rw [bind_eq_ok]
  exact ⟨_, written, stepped⟩

theorem copyRow_filled (fits : Fits w h nw nh) (positive : 0 < w)
    (high : 0 < h) (row : y < nh)
    (filled : Filled src w h (nw * nh) (y * nw) out) :
    ∃ next, copyRow src w h nw nh out y = .ok next ∧
      Filled src w h (nw * nh) ((y + 1) * nw) next := by
  have scaled : checked (do div (← mul u32 y h) nh) = .ok (y * h / nh) :=
    scaled_eq_ok.mpr ⟨Nat.lt_of_le_of_lt (scaled_le h row) fits.rows,
      by omega, rfl⟩
  rcases foldlM_range_ok
      (fun x state => Filled src w h (nw * nh) (y * nw + x) state) filled
      (fun x column state filled =>
        copyPixel_filled fits positive high row column filled) with
    ⟨next, ran, filled⟩
  refine ⟨next, ?_, ?_⟩
  · rw [copyRow, bind_eq_ok]
    exact ⟨_, scaled, ran⟩
  · rw [Nat.add_mul, Nat.one_mul]
    exact filled

/-- Where the products are in range, an image is resized. -/
theorem nnResize_filled (fits : Fits w h nw nh) (positive : 0 < w)
    (high : 0 < h) (src : List UInt8) :
    ∃ out, nnResize src w h nw nh = .ok out ∧ out.length = nw * nh * 3 ∧
      (w * h * 3 = src.length → Sampled src (w * h) out (nw * nh)) := by
  have begins : Filled src w h (nw * nh) (0 * nw)
      (List.replicate (nw * nh * 3) 0) := by
    refine ⟨List.length_replicate, ?_⟩
    intro _ index below
    omega
  rcases foldlM_range_ok
      (fun y state => Filled src w h (nw * nh) (y * nw) state) begins
      (fun y row state filled =>
        copyRow_filled fits positive high row filled) with
    ⟨out, ran, filled⟩
  refine ⟨out, ?_, filled.length, ?_⟩
  · rw [nnResize, bind_eq_ok]
    exact ⟨_, size_eq_ok.mpr ⟨fits.size, rfl⟩, ran⟩
  · intro matching
    rw [Nat.mul_comm nw nh]
    exact filled.sampled matching

end

/-! ## Halving -/

/-- The products of a halving are in range. -/
def Halves (w h : Nat) : Prop :=
  Fits w h (halve w) (halve h)

/-- What is halved once can be halved again. -/
theorem Halves.again {w h : Nat} (halves : Halves w h) (wide : 0 < w)
    (high : 0 < h) : Halves (halve w) (halve h) := by
  have width := halve_le wide
  have height := halve_le high
  have width' := halve_le (halve_pos w)
  have height' := halve_le (halve_pos h)
  have rows : (halve (halve h) - 1) * halve h ≤ (halve h - 1) * h :=
    Nat.mul_le_mul (Nat.sub_le_sub_right height' 1) height
  have columns : (halve (halve w) - 1) * halve w ≤ (halve w - 1) * w :=
    Nat.mul_le_mul (Nat.sub_le_sub_right width' 1) width
  have size : halve (halve w) * halve (halve h) * 3 ≤
      halve w * halve h * 3 :=
    Nat.mul_le_mul_right 3 (Nat.mul_le_mul width' height')
  have cell := cell_lt
    (scaled_lt (halve_pos h) (Nat.sub_lt (halve_pos (halve h)) Nat.one_pos))
    (scaled_lt (halve_pos w) (Nat.sub_lt (halve_pos (halve w)) Nat.one_pos))
  have source := halves.size
  exact ⟨Nat.lt_of_le_of_lt size halves.size,
    Nat.lt_of_le_of_lt rows halves.rows,
    Nat.lt_of_le_of_lt columns halves.columns, by omega⟩

/-- A prepared image respects the limits, and has the bytes of its
dimensions. -/
structure Within (limits : MediaLimits) (image : PreparedImage) : Prop where
  wide : 1 ≤ image.width
  high : 1 ≤ image.height
  width : image.width ≤ limits.maxEdge
  height : image.height ≤ limits.maxEdge
  bytes : image.rgb.length = 3 * image.width * image.height
  few : image.rgb.length ≤ limits.maxBytes

/-- Limits that an image of one pixel respects. -/
structure Roomy (limits : MediaLimits) : Prop where
  edge : 1 ≤ limits.maxEdge
  bytes : 3 ≤ limits.maxBytes

variable {limits : MediaLimits} {w h : Nat} {rgb : List UInt8}

/-- An image with the bytes of its dimensions is within the limits where it is
not halved. -/
theorem within_of_not_large (roomy : Roomy limits) (wide : 0 < w)
    (high : 0 < h) (length : rgb.length = w * h * 3)
    (small : ¬ Large limits w h rgb) : Within limits ⟨w, h, rgb⟩ := by
  have bytes : rgb.length = 3 * w * h := by
    rw [length, Nat.mul_comm, Nat.mul_assoc]
  rw [Large, not_and_or, not_or, not_or, not_or] at small
  rcases small with ⟨width, height, few⟩ | ⟨narrow, low⟩
  · exact ⟨wide, high, Nat.le_of_not_lt width, Nat.le_of_not_lt height, bytes,
      Nat.le_of_not_lt few⟩
  · rcases Nat.le_antisymm (Nat.le_of_not_lt narrow) wide with rfl
    rcases Nat.le_antisymm (Nat.le_of_not_lt low) high with rfl
    exact ⟨wide, high, roomy.edge, roomy.edge, bytes,
      length.trans_le roomy.bytes⟩

theorem shrink_of_not_large (small : ¬ Large limits w h rgb) :
    shrink limits w h rgb = .ok ⟨w, h, rgb⟩ := by
  rw [shrink, dif_neg small]

theorem shrink_of_resized (large : Large limits w h rgb)
    {smaller : List UInt8}
    (resized : nnResize rgb w h (halve w) (halve h) = .ok smaller) :
    shrink limits w h rgb = shrink limits (halve w) (halve h) smaller := by
  rw [shrink, dif_pos large, resized]

/-- The loop ends within the limits, with pixels of the image it began
with. -/
theorem shrink_within (roomy : Roomy limits) (wide : 0 < w) (high : 0 < h)
    (halves : Large limits w h rgb → Halves w h)
    (length : rgb.length = w * h * 3) :
    ∃ image, shrink limits w h rgb = .ok image ∧ Within limits image ∧
      Sampled rgb (w * h) image.rgb (image.width * image.height) := by
  induction w, h, rgb using shrink.induct limits with
  | case1 w h rgb large panic failed =>
      rcases nnResize_filled (halves large) wide high rgb with ⟨out, ran, -⟩
      rw [failed] at ran
      cases ran
  | case2 w h rgb large smaller resized induction =>
      rcases nnResize_filled (halves large) wide high rgb with
        ⟨out, ran, length', sampled⟩
      rw [resized] at ran
      cases ran
      rcases induction (halve_pos w) (halve_pos h)
          (fun _ => (halves large).again wide high) length' with
        ⟨image, ended, within, later⟩
      refine ⟨image, ?_, within, (sampled length.symm).trans later⟩
      rw [shrink_of_resized large resized, ended]
  | case3 w h rgb small =>
      exact ⟨_, shrink_of_not_large small,
        within_of_not_large roomy wide high length small,
        Sampled.refl rgb (w * h)⟩

/-! ## Prepared images -/

/-- An image comes out within the limits, with pixels of its own if it has the
bytes of its dimensions. -/
structure Sound (limits : MediaLimits) (image : RawImage)
    (prepared : PreparedImage) : Prop where
  within : Within limits prepared
  sampled : image.rgb.length = 3 * image.width * image.height →
    Sampled image.rgb (image.width * image.height) prepared.rgb
      (prepared.width * prepared.height)

/-- The checks of `prepare_images` pass. -/
structure Accepted (limits : MediaLimits) (images : List RawImage) :
    Prop where
  few : images.length ≤ limits.maxImages
  filled : ∀ image ∈ images, image.isEmpty = false

/-- The products of the first halving are in range; an image that is not
halved has the bytes of its dimensions. -/
def Prepares (limits : MediaLimits) (image : RawImage) : Prop :=
  if Large limits image.width image.height image.rgb then
    Halves image.width image.height
  else image.rgb.length = 3 * image.width * image.height

theorem bytes_comm {image : RawImage} :
    image.rgb.length = 3 * image.width * image.height ↔
      image.width * image.height * 3 = image.rgb.length := by
  rw [eq_comm, Nat.mul_comm _ 3, Nat.mul_assoc]

/-- An image that is halved comes out sound exactly if the products of the
first halving are in range. -/
theorem shrink_large_iff (roomy : Roomy limits) {image : RawImage}
    (wide : 0 < image.width) (high : 0 < image.height)
    (large : Large limits image.width image.height image.rgb) :
    (∃ prepared, shrink limits image.width image.height image.rgb =
        .ok prepared ∧ Sound limits image prepared) ↔
      Halves image.width image.height := by
  constructor
  · rintro ⟨prepared, ended, -⟩
    cases resized : nnResize image.rgb image.width image.height
        (halve image.width) (halve image.height) with
    | error panic =>
        rw [shrink, dif_pos large, resized] at ended
        cases ended
    | ok smaller =>
        exact fits_of_nnResize (halve_pos _) (halve_pos _) resized
  · intro halves
    rcases nnResize_filled halves wide high image.rgb with
      ⟨smaller, resized, length, first⟩
    rcases shrink_within roomy (halve_pos _) (halve_pos _)
        (fun _ => halves.again wide high) length with
      ⟨prepared, ended, within, later⟩
    refine ⟨prepared, ?_, within, ?_⟩
    · rw [shrink_of_resized large resized, ended]
    · intro matching
      exact (first (bytes_comm.mp matching)).trans later

theorem downscale_iff (roomy : Roomy limits) {image : RawImage}
    (filled : image.isEmpty = false) :
    (∃ prepared, downscale image limits = .ok prepared ∧
      Sound limits image prepared) ↔ Prepares limits image := by
  rw [RawImage.isEmpty, decide_eq_false_iff_not, not_or, not_or] at filled
  rcases filled with ⟨-, width, height⟩
  have wide := Nat.pos_of_ne_zero width
  have high := Nat.pos_of_ne_zero height
  rw [downscale, Nat.max_eq_left wide, Nat.max_eq_left high, Prepares]
  by_cases large : Large limits image.width image.height image.rgb
  · rw [if_pos large]
    exact shrink_large_iff roomy wide high large
  · rw [if_neg large, shrink_of_not_large large]
    constructor
    · rintro ⟨prepared, ended, sound⟩
      cases ended
      exact sound.within.bytes
    · intro matching
      have length := (bytes_comm.mp matching).symm
      exact ⟨_, rfl, within_of_not_large roomy wide high length large,
        fun _ => Sampled.refl _ _⟩

/-- Every image of a list comes out sound. -/
def AllSound (limits : MediaLimits) (images : List RawImage) : Prop :=
  ∃ prepared, prepareImages images limits = .ok prepared ∧
    List.Forall₂ (Sound limits) images prepared

theorem prepareAll_cons_iff {image : RawImage} {images : List RawImage}
    (filled : image.isEmpty = false) {all : List PreparedImage} :
    prepareAll limits (image :: images) = .ok all ↔
      ∃ prepared, downscale image limits = .ok prepared ∧
        ∃ others, prepareAll limits images = .ok others ∧
          prepared :: others = all := by
  rw [prepareAll, filled]
  simp only [Bool.false_eq_true, if_false, bind_eq_ok, mapError_eq_ok, pure,
    Except.pure, Except.ok.injEq]

theorem prepareAll_iff (roomy : Roomy limits) {images : List RawImage}
    (filled : ∀ image ∈ images, image.isEmpty = false) :
    (∃ prepared, prepareAll limits images = .ok prepared ∧
      List.Forall₂ (Sound limits) images prepared) ↔
        ∀ image ∈ images, Prepares limits image := by
  induction images with
  | nil => simp [prepareAll]
  | cons image images induction =>
      rcases List.forall_mem_cons.mp filled with ⟨here, there⟩
      rw [List.forall_mem_cons, ← downscale_iff roomy here,
        ← induction there]
      constructor
      · rintro ⟨all, ran, sound⟩
        rcases (prepareAll_cons_iff here).mp ran with
          ⟨prepared, ended, others, later, rfl⟩
        rcases List.forall₂_cons.mp sound with ⟨first, rest⟩
        exact ⟨⟨prepared, ended, first⟩, ⟨others, later, rest⟩⟩
      · rintro ⟨⟨prepared, ended, first⟩, ⟨others, ran, rest⟩⟩
        exact ⟨prepared :: others,
          (prepareAll_cons_iff here).mpr ⟨prepared, ended, others, ran, rfl⟩,
          .cons first rest⟩

theorem AllSound.prepares (roomy : Roomy limits) {images : List RawImage}
    (accepted : Accepted limits images) (sound : AllSound limits images) :
    ∀ image ∈ images, Prepares limits image := by
  rw [AllSound, prepareImages, if_neg (Nat.not_lt_of_le accepted.few)]
    at sound
  exact (prepareAll_iff roomy accepted.filled).mp sound

/-- The images that are accepted come out within the limits, with the bytes of
their dimensions and with pixels of their own, exactly if the products of each
first halving fit a `u32`, and the images that are not halved have the bytes
of their dimensions. -/
theorem allSound_iff (roomy : Roomy limits) (images : List RawImage)
    (accepted : Accepted limits images) :
    AllSound limits images ↔ ∀ image ∈ images, Prepares limits image := by
  constructor
  · exact AllSound.prepares roomy accepted
  · intro prepares
    rw [AllSound, prepareImages, if_neg (Nat.not_lt_of_le accepted.few)]
    exact (prepareAll_iff roomy accepted.filled).mpr prepares

/-! Three images in one pixel of room: two pixels with their bytes, one pixel
with the bytes of two, and a column that is too high for its products. -/

def tight : MediaLimits :=
  ⟨1, 1, 3⟩

def twoPixels : RawImage :=
  ⟨2, 1, [1, 2, 3, 4, 5, 6], by decide, by decide⟩

def onePixel : RawImage :=
  ⟨1, 1, [1, 2, 3, 4, 5, 6], by decide, by decide⟩

def column : RawImage :=
  ⟨1, 100000, List.replicate 300000 0, by decide, by decide⟩

theorem roomy_tight : Roomy tight :=
  ⟨by decide, by decide⟩

theorem accepted_singleton {image : RawImage}
    (filled : image.isEmpty = false) : Accepted tight [image] := by
  refine ⟨Nat.le_refl 1, ?_⟩
  rintro other (_ | ⟨_, ⟨⟩⟩)
  exact filled

theorem allSound_twoPixels : AllSound tight [twoPixels] := by
  apply (allSound_iff roomy_tight _ (accepted_singleton (by decide))).mpr
  rintro image (_ | ⟨_, ⟨⟩⟩)
  rw [Prepares, if_pos (by decide)]
  exact ⟨by decide, by decide, by decide, by decide⟩

/-- The one pixel is left as it is, above the limit; the column ends the
program. -/
theorem not_allSound :
    ¬ AllSound tight [onePixel] ∧ ¬ AllSound tight [column] := by
  constructor
  · intro sound
    have prepares := sound.prepares roomy_tight
      (accepted_singleton (by decide)) onePixel List.mem_cons_self
    rw [Prepares, if_neg (by decide)] at prepares
    exact absurd prepares (by decide)
  · intro sound
    have length : column.rgb.length = 300000 := List.length_replicate
    have filled : column.isEmpty = false := by
      rw [RawImage.isEmpty, decide_eq_false_iff_not, length]
      decide
    have prepares := sound.prepares roomy_tight
      (accepted_singleton filled) column List.mem_cons_self
    have large : Large tight column.width column.height column.rgb :=
      ⟨Or.inr (Or.inl (by decide)), Or.inr (by decide)⟩
    rw [Prepares, if_pos large] at prepares
    exact absurd prepares.rows (by decide)

end Runa.Cloud.Images

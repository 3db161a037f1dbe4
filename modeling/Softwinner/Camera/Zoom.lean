import Mathlib.Algebra.Order.Group.Unbundled.Abs
import Softwinner.Camera.Frame
import Softwinner.Camera.SetParameters
import Softwinner.Framework.Runs

/-!
# Zoom

`calculateCrop` turns a zoom into a rectangle of the frame.  `captureThread` publishes its size
with each frame, and `setParameters` computes the ratio of the zoom once more.

`calculateCrop32_zoom` says what rectangles are computed, and that the computation stays in 32
bits.  `zoomAgrees_iff` says when the three places agree, in every sequence of zooms, video sizes,
starts of the device and frames: a rectangle is computed once for a zoom, and kept for the frames
behind it.
-/

namespace Softwinner.Camera

open Framework

/-! ## The rectangle -/

/-- `Rect`, with the last column and the last row. -/
structure Rect where
  left : ℤ
  top : ℤ
  right : ℤ
  bottom : ℤ
  deriving DecidableEq

section Geometry

variable {newZoom maxZoom width height size part part' ratio ratio' : ℤ}

/-- `new_ratio`, in percent. -/
def cropRatio (newZoom maxZoom : ℤ) : ℤ := (newZoom * 2 * 100).tdiv maxZoom + 100

/-- The first and the last row or column of the rectangle, where `size` is the height or the width
of the frame. -/
def cropSide (ratio size : ℤ) : ℤ × ℤ :=
  let left := (size - (size * 100).tdiv ratio).tdiv 2
  (left, left + (size * 100).tdiv ratio - 1)

def calculateCrop (newZoom maxZoom width height : ℤ) : Rect :=
  if maxZoom = 0 then ⟨0, 0, width - 1, height - 1⟩
  else
    let newRatio := cropRatio newZoom maxZoom
    ⟨(cropSide newRatio width).1, (cropSide newRatio height).1, (cropSide newRatio width).2,
      (cropSide newRatio height).2⟩

/-! ## The computation in 32 bits -/

/-- The value of an operation, if it is an `int`. -/
def int32 (x : ℤ) : Option ℤ := if -2147483648 ≤ x ∧ x < 2147483648 then some x else none

def div32 (a b : ℤ) : Option ℤ := if b = 0 then none else int32 (a.tdiv b)

def cropRatio32 (newZoom maxZoom : ℤ) : Option ℤ := do
  let twice ← int32 (newZoom * 2)
  let hundred ← int32 (twice * 100)
  let quotient ← div32 hundred maxZoom
  int32 (quotient + 100)

def cropSide32 (ratio size : ℤ) : Option (ℤ × ℤ) := do
  let hundred ← int32 (size * 100)
  let part ← div32 hundred ratio
  let rest ← int32 (size - part)
  let left ← div32 rest 2
  let stop ← int32 (left + part)
  let right ← int32 (stop - 1)
  return (left, right)

/-- `calculateCrop`, where no operation may overflow. -/
def calculateCrop32 (newZoom maxZoom width height : ℤ) : Option Rect :=
  if maxZoom = 0 then do
    let right ← int32 (width - 1)
    let bottom ← int32 (height - 1)
    return ⟨0, 0, right, bottom⟩
  else do
    let newRatio ← cropRatio32 newZoom maxZoom
    let across ← cropSide32 newRatio width
    let down ← cropSide32 newRatio height
    return ⟨across.1, down.1, across.2, down.2⟩

lemma int32_eq_some {x : ℤ} (hlo : -2147483648 ≤ x) (hhi : x < 2147483648) : int32 x = some x :=
  if_pos ⟨hlo, hhi⟩

lemma div32_eq_some {a b : ℤ} (ha : 0 ≤ a) (hb : 0 < b) (hhi : a < 2147483648) :
    div32 a b = some (a / b) := by
  have hle : a / b ≤ a := Int.ediv_le_self b ha
  have hnonneg : 0 ≤ a / b := Int.ediv_nonneg ha hb.le
  rw [div32, if_neg hb.ne', Int.tdiv_eq_ediv_of_nonneg ha]
  exact int32_eq_some (by omega) (by omega)

lemma int32_bind {α : Type} {x : ℤ} {f : ℤ → Option α} (hlo : -2147483648 ≤ x)
    (hhi : x < 2147483648) : int32 x >>= f = f x := by
  rw [int32_eq_some hlo hhi]
  rfl

lemma div32_bind {α : Type} {a b : ℤ} {f : ℤ → Option α} (ha : 0 ≤ a) (hb : 0 < b)
    (hhi : a < 2147483648) : div32 a b >>= f = f (a / b) := by
  rw [div32_eq_some ha hb hhi]
  rfl

/-! ## Centred parts -/

/-- A part of a side, in the middle of it. -/
def centred (size part : ℤ) : ℤ × ℤ := ((size - part) / 2, (size - part) / 2 + part - 1)

lemma centred_inside (hpos : 1 ≤ part) (hle : part ≤ size) :
    0 ≤ (centred size part).1 ∧ (centred size part).1 ≤ (centred size part).2 ∧
      (centred size part).2 < size := by
  rw [centred]
  dsimp only
  omega

lemma centred_self (size : ℤ) : centred size size = (0, size - 1) := by
  rw [centred, sub_self, Int.zero_ediv, zero_add]

/-- As much is left out on both sides, up to one. -/
lemma centred_centred (size part : ℤ) :
    |(centred size part).1 - (size - 1 - (centred size part).2)| ≤ 1 := by
  rw [centred, abs_le]
  dsimp only
  omega

/-- A smaller part is inside. -/
lemma centred_anti (size : ℤ) (h : part' ≤ part) : (centred size part).1 ≤ (centred size part').1 ∧
    (centred size part').2 ≤ (centred size part).2 := by
  rw [centred, centred]
  dsimp only
  omega

/-! ## Ratios -/

lemma cropRatio_eq (h : 0 ≤ newZoom) :
    cropRatio newZoom maxZoom = newZoom * 2 * 100 / maxZoom + 100 := by
  rw [cropRatio, Int.tdiv_eq_ediv_of_nonneg (by omega)]

/-- The zoom is from 1 to 3. -/
lemma cropRatio_mem (hmax : 1 ≤ maxZoom) (h : 0 ≤ newZoom) (hle : newZoom ≤ maxZoom) :
    100 ≤ cropRatio newZoom maxZoom ∧ cropRatio newZoom maxZoom ≤ 300 := by
  rw [cropRatio_eq h]
  have hnonneg : 0 ≤ newZoom * 2 * 100 / maxZoom := Int.ediv_nonneg (by omega) (by omega)
  have hlt : newZoom * 2 * 100 / maxZoom < 201 := Int.ediv_lt_of_lt_mul (by omega) (by omega)
  omega

lemma cropRatio_zero (maxZoom : ℤ) : cropRatio 0 maxZoom = 100 := by
  rw [cropRatio_eq le_rfl, zero_mul, zero_mul, Int.zero_ediv, zero_add]

lemma cropRatio_mono {newZoom' : ℤ} (hmax : 1 ≤ maxZoom) (h : 0 ≤ newZoom)
    (hle : newZoom ≤ newZoom') : cropRatio newZoom maxZoom ≤ cropRatio newZoom' maxZoom := by
  rw [cropRatio_eq h, cropRatio_eq (h.trans hle)]
  have := Int.ediv_le_ediv (c := maxZoom) (by omega)
    (show newZoom * 2 * 100 ≤ newZoom' * 2 * 100 by omega)
  omega

lemma cropRatio32_eq_some (hmax : 1 ≤ maxZoom) (hmax' : maxZoom ≤ 1000000) (h : 0 ≤ newZoom)
    (hle : newZoom ≤ maxZoom) :
    cropRatio32 newZoom maxZoom = some (cropRatio newZoom maxZoom) := by
  obtain ⟨hlo, hhi⟩ := cropRatio_mem hmax h hle
  rw [cropRatio_eq h] at *
  rw [cropRatio32, int32_bind (by omega) (by omega), int32_bind (by omega) (by omega),
    div32_bind (by omega) (by omega) (by omega), int32_eq_some (by omega) (by omega)]

/-! ## Sides -/

/-- The side of the rectangle is a part in the middle. -/
lemma cropSide_eq (hratio : 100 ≤ ratio) (hsize : 0 ≤ size) :
    cropSide ratio size = centred size (size * 100 / ratio) := by
  have hle : size * 100 / ratio ≤ size := by
    have : size * 100 ≤ size * ratio := mul_le_mul_of_nonneg_left hratio hsize
    exact Int.ediv_le_of_le_mul (by omega) this
  rw [cropSide, centred, Int.tdiv_eq_ediv_of_nonneg (by omega : 0 ≤ size * 100),
    Int.tdiv_eq_ediv_of_nonneg (by omega)]

lemma part_mem (hlo : 100 ≤ ratio) (hhi : ratio ≤ 300) (hsize : 3 ≤ size) :
    1 ≤ size * 100 / ratio ∧ size * 100 / ratio ≤ size := by
  have hle : size * 100 ≤ size * ratio := mul_le_mul_of_nonneg_left hlo (by omega)
  exact ⟨Int.le_ediv_of_mul_le (by omega) (by omega), Int.ediv_le_of_le_mul (by omega) hle⟩

lemma part_anti (size : ℤ) (hlo : 0 < ratio) (hle : ratio ≤ ratio') (hsize : 0 ≤ size) :
    size * 100 / ratio' ≤ size * 100 / ratio := by
  refine Int.le_ediv_of_mul_le hlo ?_
  have hnonneg : 0 ≤ size * 100 / ratio' := Int.ediv_nonneg (by omega) (by omega)
  calc size * 100 / ratio' * ratio ≤ size * 100 / ratio' * ratio' :=
        mul_le_mul_of_nonneg_left hle hnonneg
    _ ≤ size * 100 := Int.ediv_mul_le _ (by omega)

lemma cropSide32_eq_some (hlo : 100 ≤ ratio) (hhi : ratio ≤ 300) (hsize : 3 ≤ size)
    (hsize' : size ≤ 1048576) : cropSide32 ratio size = some (cropSide ratio size) := by
  obtain ⟨hpos, hle⟩ := part_mem hlo hhi hsize
  rw [cropSide_eq hlo (by omega), cropSide32, int32_bind (by omega) (by omega),
    div32_bind (by omega) (by omega) (by omega), int32_bind (by omega) (by omega),
    div32_bind (by omega) (by omega) (by omega), int32_bind (by omega) (by omega),
    int32_bind (by omega) (by omega)]
  rfl

/-! ## Rectangles -/

namespace Rect

/-- Not empty, and inside the frame. -/
def Inside (r : Rect) (width height : ℤ) : Prop :=
  0 ≤ r.left ∧ r.left ≤ r.right ∧ r.right < width ∧ 0 ≤ r.top ∧ r.top ≤ r.bottom ∧
    r.bottom < height

/-- In the middle of the frame, up to one pixel. -/
def Centred (r : Rect) (width height : ℤ) : Prop :=
  |r.left - (width - 1 - r.right)| ≤ 1 ∧ |r.top - (height - 1 - r.bottom)| ≤ 1

def Contains (r r' : Rect) : Prop :=
  r.left ≤ r'.left ∧ r'.right ≤ r.right ∧ r.top ≤ r'.top ∧ r'.bottom ≤ r.bottom

end Rect

lemma calculateCrop_eq (hmax : 1 ≤ maxZoom) (h : 0 ≤ newZoom) (hle : newZoom ≤ maxZoom)
    (hwidth : 3 ≤ width) (hheight : 3 ≤ height) :
    calculateCrop newZoom maxZoom width height =
      ⟨(centred width (width * 100 / cropRatio newZoom maxZoom)).1,
        (centred height (height * 100 / cropRatio newZoom maxZoom)).1,
        (centred width (width * 100 / cropRatio newZoom maxZoom)).2,
        (centred height (height * 100 / cropRatio newZoom maxZoom)).2⟩ := by
  obtain ⟨hlo, hhi⟩ := cropRatio_mem hmax h hle
  rw [calculateCrop, if_neg (by omega), ← cropSide_eq hlo (by omega), ← cropSide_eq hlo (by omega)]

lemma calculateCrop32_eq_some (hmax : 1 ≤ maxZoom) (hmax' : maxZoom ≤ 1000000) (h : 0 ≤ newZoom)
    (hle : newZoom ≤ maxZoom) (hwidth : 3 ≤ width) (hwidth' : width ≤ 1048576)
    (hheight : 3 ≤ height) (hheight' : height ≤ 1048576) :
    calculateCrop32 newZoom maxZoom width height =
      some (calculateCrop newZoom maxZoom width height) := by
  obtain ⟨hlo, hhi⟩ := cropRatio_mem hmax h hle
  rw [calculateCrop32, if_neg (by omega), cropRatio32_eq_some hmax hmax' h hle,
    calculateCrop, if_neg (by omega)]
  show (cropSide32 _ _ >>= fun across => _) = _
  rw [cropSide32_eq_some hlo hhi hwidth hwidth', cropSide32_eq_some hlo hhi hheight hheight']
  rfl

/-- The computation stays in 32 bits; the rectangle is inside the frame and in the middle of it, the
whole frame without zoom, and around those of larger zooms. -/
theorem calculateCrop32_zoom (hmax : 1 ≤ maxZoom) (hmax' : maxZoom ≤ 1000000) (h : 0 ≤ newZoom)
    (hle : newZoom ≤ maxZoom) (hwidth : 3 ≤ width) (hwidth' : width ≤ 1048576)
    (hheight : 3 ≤ height) (hheight' : height ≤ 1048576) :
    ∃ r, calculateCrop32 newZoom maxZoom width height = some r ∧ r.Inside width height ∧
      (newZoom = 0 → r = ⟨0, 0, width - 1, height - 1⟩) ∧ r.Centred width height ∧
      ∀ newZoom', newZoom ≤ newZoom' → newZoom' ≤ maxZoom →
        ∃ r', calculateCrop32 newZoom' maxZoom width height = some r' ∧ r.Contains r' := by
  obtain ⟨hlo, hhi⟩ := cropRatio_mem hmax h hle
  have hacross := part_mem hlo hhi hwidth
  have hdown := part_mem hlo hhi hheight
  refine ⟨_, calculateCrop32_eq_some hmax hmax' h hle hwidth hwidth' hheight hheight', ?_, ?_, ?_,
    fun newZoom' hle' hle'' => ⟨_, calculateCrop32_eq_some hmax hmax' (h.trans hle') hle'' hwidth
      hwidth' hheight hheight', ?_⟩⟩
  · rw [calculateCrop_eq hmax h hle hwidth hheight]
    obtain ⟨hl, hlr, hr⟩ := centred_inside hacross.1 hacross.2
    obtain ⟨ht, htb, hb⟩ := centred_inside hdown.1 hdown.2
    exact ⟨hl, hlr, hr, ht, htb, hb⟩
  · rintro rfl
    rw [calculateCrop_eq hmax h hle hwidth hheight, cropRatio_zero,
      Int.mul_ediv_cancel _ (by decide), Int.mul_ediv_cancel _ (by decide), centred_self,
      centred_self]
  · rw [calculateCrop_eq hmax h hle hwidth hheight]
    exact ⟨centred_centred .., centred_centred ..⟩
  · rw [calculateCrop_eq hmax h hle hwidth hheight,
      calculateCrop_eq hmax (h.trans hle') hle'' hwidth hheight]
    have hmono := cropRatio_mono hmax h hle'
    have hacross' := centred_anti width (part_anti width (by omega) hmono (by omega))
    have hdown' := centred_anti height (part_anti height (by omega) hmono (by omega))
    exact ⟨hacross'.1, hacross'.2, hdown'.1, hdown'.2⟩

/-- The largest zoom of a VGA frame is a third of it. -/
theorem calculateCrop32_vga : ∃ r, calculateCrop32 100 100 640 480 = some r ∧ r.Inside 640 480 ∧
    ((100 : ℤ) = 0 → r = ⟨0, 0, 640 - 1, 480 - 1⟩) ∧ r.Centred 640 480 ∧
      ∀ newZoom', 100 ≤ newZoom' → newZoom' ≤ 100 →
        ∃ r', calculateCrop32 newZoom' 100 640 480 = some r' ∧ r.Contains r' :=
  calculateCrop32_zoom (by decide) (by decide) (by decide) le_rfl (by decide) (by decide)
    (by decide) (by decide)

end Geometry

/-! ## Publishing -/

def Rect.extent (r : Rect) : ℤ × ℤ := (r.right - r.left + 1, r.bottom - r.top + 1)

def CropRect.extent (r : CropRect) : ℤ × ℤ := (r.width, r.height)

/-- The fields of `V4L2CameraDevice` that a frame is cropped and published with. -/
structure Capture where
  newZoom : ℤ
  lastZoom : ℤ
  maxZoom : ℤ
  rectCrop : Rect
  thumbRectCrop : Rect
  frameWidth : ℤ
  frameHeight : ℤ
  thumbWidth : ℤ
  thumbHeight : ℤ
  videoWidth : ℤ
  videoHeight : ℤ
  isThumbUsedForVideo : Bool
  fastPictureMode : Bool
  videoFormat : PixelFormat

namespace Capture

variable {c : Capture} {addrPhy addrVir : ℤ}

def setCrop (c : Capture) (newZoom maxZoom : ℤ) : Capture :=
  { c with newZoom := newZoom, maxZoom := maxZoom }

/-- Both rates, quotients of `float`s, are above 4.0. -/
def cropsHalf (c : Capture) : Bool :=
  c.isThumbUsedForVideo && decide (4 * c.videoWidth < c.frameWidth) &&
    decide (4 * c.videoHeight < c.frameHeight)

/-- `calculateCrop` with the zoom of the device. -/
def crop (c : Capture) (width height : ℤ) : Rect :=
  calculateCrop c.newZoom c.maxZoom width height

/-- The crop update of `captureThread`. -/
def updateCrop (c : Capture) : Capture :=
  if c.lastZoom ≠ c.newZoom then
    { c with
      rectCrop :=
        -- for cts, to do
        if c.cropsHalf then c.crop (c.frameWidth.tdiv 2) (c.frameHeight.tdiv 2)
        else c.crop c.frameWidth c.frameHeight
      thumbRectCrop :=
        if c.fastPictureMode then c.crop c.thumbWidth c.thumbHeight else c.thumbRectCrop
      lastZoom := c.newZoom }
  else c

/-- The `V4L2BUF_t` of the frame at an address; without fast pictures there is no thumbnail, and its
fields are not set. -/
def publish (c : Capture) (addrPhy addrVir : ℤ) : V4l2Buf :=
  let main : View := ⟨c.videoFormat, addrPhy, addrVir, c.frameWidth, c.frameHeight,
    ⟨c.rectCrop.left, c.rectCrop.top, c.rectCrop.right - c.rectCrop.left + 1,
      c.rectCrop.bottom - c.rectCrop.top + 1⟩⟩
  if c.fastPictureMode then
    let offset := align4K ((align32B c.frameWidth * c.frameHeight * 3).tdiv 2)
    ⟨main, 1, 1, 0, ⟨c.videoFormat, addrPhy + offset, addrVir + offset, c.thumbWidth, c.thumbHeight,
      ⟨c.thumbRectCrop.left, c.thumbRectCrop.top, c.thumbRectCrop.right - c.thumbRectCrop.left,
        c.thumbRectCrop.bottom - c.thumbRectCrop.top⟩⟩⟩
  else .ofView main

/-- A device before its first frame, which is to be of the size. -/
def started (width height : ℤ) (fast : Bool) : Capture :=
  ⟨0, -1, 100, ⟨0, 0, 0, 0⟩, ⟨0, 0, 0, 0⟩, width, height, 320, 240, 640, 480, false, fast, .nv21⟩

@[simp] lemma fastPictureMode_updateCrop : c.updateCrop.fastPictureMode = c.fastPictureMode := by
  rw [updateCrop]
  split_ifs <;> rfl

end Capture

/-! ## Agreement -/

/-- Without zoom, the rectangle is the frame. -/
lemma extent_calculateCrop_zero {m w h : ℤ} : (calculateCrop 0 m w h).extent = (w, h) := by
  have hside (size : ℤ) : cropSide 100 size = (0, size - 1) := by
    rw [cropSide, Int.mul_tdiv_cancel _ (by decide), sub_self, Int.zero_tdiv, zero_add]
  rw [calculateCrop, cropRatio_zero]
  dsimp only
  rw [hside, hside, Rect.extent]
  split_ifs <;> simp

namespace SetParameters

/-- The size of a frame or a video. -/
structure FrameSize where
  width : ℤ
  height : ℤ
  width_pos : 0 < width
  height_pos : 0 < height

/-- The parameters, and the device that the zoom is set in. -/
structure Zooming where
  params : State
  device : Capture

inductive ZoomAct
  /-- The zoom part of a call of `setParameters`. -/
  | setParameters (r : Parameters)
  /-- The device is told whether the video is taken from the thumbnail. -/
  | setVideoCaptureSize (isThumbUsed : Bool) (video : FrameSize)
  /-- `stopDevice` and `startDevice`, with the sizes that the driver gives. -/
  | startDevice (frame thumb : FrameSize)
  /-- An iteration of `captureThread`. -/
  | capture

namespace Zooming

variable {e : Env} {r : Parameters} {x x' : Zooming} {a : ZoomAct} {c : Capture}
  {addrPhy addrVir : ℤ}

def step (e : Env) (x : Zooming) : ZoomAct → Option Zooming
  | .setParameters r =>
    match zoomPart e r x.params with
    | none => none
    | some (.error _) => some x
    | some (.ok ws) => some ⟨x.params.applyAll ws,
        x.device.setCrop (zoom e r + baseZoom) (maxZoom e x.params)⟩
  | .setVideoCaptureSize isThumbUsed video =>
    if isThumbUsed then
      some { x with device := { x.device with
        isThumbUsedForVideo := true, videoWidth := video.width, videoHeight := video.height } }
    else some { x with device := { x.device with isThumbUsedForVideo := false } }
  | .startDevice frame thumb =>
    some { x with device := { x.device with
      lastZoom := -1, frameWidth := frame.width, frameHeight := frame.height,
      thumbWidth := thumb.width, thumbHeight := thumb.height } }
  | .capture => some { x with device := x.device.updateCrop }

/-! ### What is asked for -/

/-- The published sizes are those of the rectangles, and full without zoom. -/
structure Publishes (c : Capture) (b : V4l2Buf) : Prop where
  main : b.main.cropRect.extent = c.rectCrop.extent
  thumb : c.fastPictureMode = true → b.thumb.cropRect.extent = c.thumbRectCrop.extent
  full : c.newZoom = 0 → b.main.cropRect.extent = (c.frameWidth, c.frameHeight)
  fullThumb : c.fastPictureMode = true → c.newZoom = 0 →
    b.thumb.cropRect.extent = (c.thumbWidth, c.thumbHeight)

/-- The ratio of the rectangles, in percent. -/
def ratio (c : Capture) : ℤ := if c.maxZoom = 0 then 100 else cropRatio c.newZoom c.maxZoom

/-- A zoom that is accepted is set in the device, with `mZoomRatio` the ratio of its rectangles; and
every frame is published with its rectangles. -/
def Agrees (e : Env) : ZoomAct → Zooming → Zooming → Prop
  | .setParameters r, x, x' => 0 ≤ zoom e r ∧ zoom e r ≤ maxZoom e x.params →
    x'.device.newZoom = zoom e r ∧ x'.device.maxZoom = maxZoom e x.params ∧
      x'.params.zoomRatio = ratio x'.device
  | .capture, _, x' => ∀ addrPhy addrVir, Publishes x'.device (x'.device.publish addrPhy addrVir)
  | _, _, _ => True

/-- An accepted zoom has steps; a frame has no thumbnail, and is not the first one without zoom of
those that are cropped to their half. -/
def Whole (e : Env) : ZoomAct → Zooming → Prop
  | .setParameters r, x => 0 ≤ zoom e r ∧ zoom e r ≤ maxZoom e x.params → maxZoom e x.params ≠ 0
  | .capture, x => x.device.fastPictureMode = false ∧
    ¬ (x.device.lastZoom ≠ x.device.newZoom ∧ x.device.newZoom = 0 ∧ x.device.cropsHalf = true)
  | _, _ => True

/-! ### A frame -/

/-- The size of the main rectangle is published as it is. -/
lemma extent_publish (c : Capture) :
    (c.publish addrPhy addrVir).main.cropRect.extent = c.rectCrop.extent := by
  rw [Capture.publish]
  split_ifs <;> rfl

/-- The one of the thumbnail is published without its last column and row. -/
lemma extent_publish_thumb (hfast : c.fastPictureMode = true) :
    (c.publish addrPhy addrVir).thumb.cropRect.extent =
      (c.thumbRectCrop.extent.1 - 1, c.thumbRectCrop.extent.2 - 1) := by
  rw [Capture.publish, if_pos hfast, CropRect.extent, Rect.extent]
  simp

/-- The main rectangle that is computed for no zoom. -/
lemma extent_rectCrop_zero (hnew : c.lastZoom ≠ c.newZoom) (hzero : c.newZoom = 0) :
    c.updateCrop.rectCrop.extent =
      if c.cropsHalf then (c.frameWidth.tdiv 2, c.frameHeight.tdiv 2)
      else (c.frameWidth, c.frameHeight) := by
  have hcrop (w h : ℤ) : (c.crop w h).extent = (w, h) := by
    rw [Capture.crop, hzero, extent_calculateCrop_zero]
  rw [Capture.updateCrop, if_pos hnew]
  show (if c.cropsHalf then _ else _ : Rect).extent = _
  split_ifs
  · exact hcrop ..
  · exact hcrop ..

/-- What a run keeps: a rectangle for no zoom is the whole frame. -/
structure Inv (c : Capture) : Prop where
  width : 0 < c.frameWidth
  whole : c.lastZoom = 0 → c.rectCrop.extent = (c.frameWidth, c.frameHeight)

lemma frame_updateCrop (c : Capture) : c.updateCrop.newZoom = c.newZoom ∧
    c.updateCrop.lastZoom = c.newZoom ∧ c.updateCrop.frameWidth = c.frameWidth ∧
    c.updateCrop.frameHeight = c.frameHeight := by
  by_cases hnew : c.lastZoom ≠ c.newZoom
  · rw [Capture.updateCrop, if_pos hnew]
    exact ⟨rfl, rfl, rfl, rfl⟩
  · rw [Capture.updateCrop, if_neg hnew]
    exact ⟨rfl, not_not.mp hnew, rfl, rfl⟩

/-- The rectangle of a frame without zoom, new or kept. -/
lemma Inv.extent_updateCrop (h : Inv c) (hzero : c.newZoom = 0)
    (hhalf : ¬ (c.lastZoom ≠ c.newZoom ∧ c.newZoom = 0 ∧ c.cropsHalf = true)) :
    c.updateCrop.rectCrop.extent = (c.frameWidth, c.frameHeight) := by
  by_cases hnew : c.lastZoom ≠ c.newZoom
  · rw [extent_rectCrop_zero hnew hzero, if_neg fun hcrops => hhalf ⟨hnew, hzero, hcrops⟩]
  · rw [Capture.updateCrop, if_neg hnew]
    exact h.whole ((not_not.mp hnew).trans hzero)

lemma Inv.updateCrop (h : Inv c)
    (hhalf : ¬ (c.lastZoom ≠ c.newZoom ∧ c.newZoom = 0 ∧ c.cropsHalf = true)) :
    Inv c.updateCrop := by
  obtain ⟨-, hlast, hwidth, hheight⟩ := frame_updateCrop c
  refine ⟨hwidth ▸ h.width, fun hzero => ?_⟩
  rw [hwidth, hheight]
  exact h.extent_updateCrop (hlast.symm.trans hzero) hhalf

/-- A frame is published as it is to be under the condition only. -/
lemma Inv.publishes_iff (h : Inv c) :
    (∀ addrPhy addrVir, Publishes c.updateCrop (c.updateCrop.publish addrPhy addrVir)) ↔
      c.fastPictureMode = false ∧
        ¬ (c.lastZoom ≠ c.newZoom ∧ c.newZoom = 0 ∧ c.cropsHalf = true) := by
  have hfast : c.updateCrop.fastPictureMode = c.fastPictureMode :=
    Capture.fastPictureMode_updateCrop
  obtain ⟨hzoom, -, hwidth, hheight⟩ := frame_updateCrop c
  constructor
  · intro hall
    obtain ⟨-, hthumb, hfull, -⟩ := hall 0 0
    refine ⟨?_, fun ⟨hnew, hzero, hhalf⟩ => ?_⟩
    · by_contra hmode
      have hmode := Bool.eq_true_of_not_eq_false hmode
      have hsize := hthumb (hfast.trans hmode)
      rw [extent_publish_thumb (hfast.trans hmode), Prod.ext_iff] at hsize
      dsimp only at hsize
      omega
    · have hpos := h.width
      have hsize := hfull (hzoom.trans hzero)
      rw [extent_publish, extent_rectCrop_zero hnew hzero, if_pos hhalf, hwidth, hheight,
        Prod.mk.injEq, Int.tdiv_eq_ediv_of_nonneg hpos.le] at hsize
      omega
  · rintro ⟨hmode, hhalf⟩ addrPhy addrVir
    have hnot : ¬ c.updateCrop.fastPictureMode = true := by
      rw [hfast, hmode]
      exact Bool.false_ne_true
    refine ⟨extent_publish _, fun hthumb => absurd hthumb hnot, fun hzero => ?_,
      fun hthumb => absurd hthumb hnot⟩
    rw [extent_publish, hwidth, hheight]
    exact h.extent_updateCrop (hzoom.symm.trans hzero) hhalf

/-! ### The zoom -/

/-- `mZoomRatio` divides by the maximal zoom in any case. -/
lemma step_setParameters (haccepted : 0 ≤ zoom e r ∧ zoom e r ≤ maxZoom e x.params) :
    (∃ x', x.step e (.setParameters r) = some x') ↔ maxZoom e x.params ≠ 0 := by
  rw [step, zoomPart, if_pos haccepted]
  split_ifs with hzero
  · exact iff_of_false (fun ⟨_, hstep⟩ => by cases hstep) fun hne => hne hzero
  · exact iff_of_true ⟨_, rfl⟩ hzero

/-- What the zoom part of a call does, if it returns. -/
lemma setParameters_cases (hstep : x.step e (.setParameters r) = some x') :
    Agrees e (.setParameters r) x x' ∧ (Inv x.device → Inv x'.device) := by
  rw [step, zoomPart] at hstep
  split_ifs at hstep with haccepted hzero
  · obtain rfl := Option.some.inj hstep
    refine ⟨fun _ => ⟨add_zero _, rfl, ?_⟩, fun h => ⟨h.width, h.whole⟩⟩
    show zoomRatio (zoom e r) (maxZoom e x.params) = if maxZoom e x.params = 0 then 100 else
      cropRatio (zoom e r + baseZoom) (maxZoom e x.params)
    rw [if_neg hzero, zoomRatio, cropRatio]
  · obtain rfl := Option.some.inj hstep
    exact ⟨fun haccepted' => absurd haccepted' haccepted, id⟩

/-! ### Runs -/

/-- The step lemma: under the condition a step returns, and agrees. -/
lemma Inv.step (h : Inv x.device) (hok : Whole e a x) :
    ∃ x', x.step e a = some x' ∧ Inv x'.device ∧ Agrees e a x x' := by
  cases a with
  | setParameters r =>
    have hreturns : ∃ x', x.step e (.setParameters r) = some x' := by
      by_cases haccepted : 0 ≤ zoom e r ∧ zoom e r ≤ maxZoom e x.params
      · exact (step_setParameters haccepted).mpr (hok haccepted)
      · exact ⟨x, by rw [Zooming.step, zoomPart, if_neg haccepted]; rfl⟩
    obtain ⟨x', hstep⟩ := hreturns
    obtain ⟨hagrees, hinv⟩ := setParameters_cases hstep
    exact ⟨x', hstep, hinv h, hagrees⟩
  | setVideoCaptureSize isThumbUsed video =>
    cases isThumbUsed with
    | true => exact ⟨_, rfl, ⟨h.width, h.whole⟩, trivial⟩
    | false => exact ⟨_, rfl, ⟨h.width, h.whole⟩, trivial⟩
  | startDevice frame thumb =>
    refine ⟨_, rfl, ⟨frame.width_pos, fun hlast => ?_⟩, trivial⟩
    cases hlast
  | capture => exact ⟨_, rfl, h.updateCrop hok.2, h.publishes_iff.mpr hok⟩

/-- A step that agrees meets the condition. -/
lemma Inv.whole_of_agrees (h : Inv x.device) (hstep : x.step e a = some x')
    (hagrees : Agrees e a x x') : Whole e a x := by
  cases a with
  | setParameters r => exact fun haccepted => (step_setParameters haccepted).mp ⟨x', hstep⟩
  | setVideoCaptureSize | startDevice => trivial
  | capture =>
    obtain rfl := Option.some.inj hstep
    exact h.publishes_iff.mp hagrees

/-- The three places agree in a sequence of steps from a device that has had no frame yet exactly if
each step meets the condition. -/
lemma alongAll_iff (hlast : x.device.lastZoom = -1) (hwidth : 0 < x.device.frameWidth)
    (acts : List ZoomAct) :
    AlongAll (step e) (fun _ => True) (Agrees e) x acts ↔ MeetsAll (step e) (Whole e) x acts := by
  have hinv : Inv x.device := ⟨hwidth, fun hzero => absurd (hlast.symm.trans hzero) (by decide)⟩
  have hgood : ∀ {y : Zooming}, Inv y.device → True := fun _ => trivial
  exact alongAll_iff_meetsAll hgood (fun h hok => h.step hok)
    (fun h hstep hagrees _ => h.whole_of_agrees hstep hagrees) acts hinv

end Zooming

/-- **Zoom.**  In every sequence of calls of `setParameters`, video sizes, starts of the device and
frames, each step returns, `mZoomRatio` is the ratio of the rectangles, and every frame is published
with the size of its rectangle, the whole of it without zoom, if and only if the zooms have steps,
there are no thumbnails, and no zoom 0 is taken by a frame that is cropped to its half. -/
theorem zoomAgrees_iff (e : Env) (x : Zooming) (hlast : x.device.lastZoom = -1)
    (hwidth : 0 < x.device.frameWidth) (acts : List ZoomAct) :
    AlongAll (Zooming.step e) (fun _ => True) (Zooming.Agrees e) x acts ↔
      MeetsAll (Zooming.step e) (Zooming.Whole e) x acts :=
  Zooming.alongAll_iff hlast hwidth acts

/-- A VGA device before its first frame. -/
def vga : Zooming := ⟨fresh, .started 640 480 false⟩

theorem zoomAgrees_vga : AlongAll (Zooming.step fixedFocus) (fun _ => True)
    (Zooming.Agrees fixedFocus) vga [.setParameters (request "normal" "jpeg"), .capture] := by
  refine (zoomAgrees_iff fixedFocus vga rfl (by decide) _).mpr
    ⟨fun _ => by decide, fun x' hstep => ⟨⟨?_, ?_⟩, fun _ _ => trivial⟩⟩
  · obtain rfl := Option.some.inj hstep
    rfl
  · obtain rfl := Option.some.inj hstep
    decide

/-! ### Half a frame -/

/-- The video is smaller than a quarter of the frames that the driver has. -/
def halving : List ZoomAct :=
  [.setVideoCaptureSize true ⟨320, 240, by decide, by decide⟩,
    .setParameters (request "normal" "jpeg"),
    .startDevice ⟨1600, 1200, by decide, by decide⟩ ⟨400, 300, by decide, by decide⟩, .capture]

/-- A frame of 1600x1200 without zoom is published with a crop of 800x600. -/
theorem not_zoomAgrees : ¬ ∀ (e : Env) (x : Zooming) (acts : List ZoomAct),
    x.device.lastZoom = -1 → 0 < x.device.frameWidth →
      AlongAll (Zooming.step e) (fun _ => True) (Zooming.Agrees e) x acts := by
  intro hall
  have hmeets := (Zooming.alongAll_iff rfl (by decide) halving).mp
    (hall fixedFocus vga halving rfl (by decide))
  obtain ⟨-, hmeets⟩ := hmeets
  obtain ⟨-, hmeets⟩ := hmeets _ rfl
  obtain ⟨-, hmeets⟩ := hmeets _ rfl
  obtain ⟨hwhole, -⟩ := hmeets _ rfl
  exact hwhole.2 (by decide)

end SetParameters

end Softwinner.Camera

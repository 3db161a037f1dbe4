import Softwinner.Camera.DownScale
import Softwinner.Camera.Frame

/-!
# The preview callback

`CallbackNotifier::onNextFrameSW` has the frame scaled into a buffer of the callback size, and
passes the buffer to `mDataCB` whatever the scaling returns.  Before the first size is set the
callback size is 0, and the scaling divides by it.

`showsFrame_iff` says for which sizes the buffer shows nothing but the frame.
-/

namespace Softwinner.Camera

open Framework

/-! ## The callbacks -/

/-- `CAMERA_MSG_…`. -/
inductive DataMsg
  | videoFrame
  | previewFrame
  deriving DecidableEq

/-- A call of a data callback with a buffer of `size` bytes, behind copies from the frame at
`addrVir`; `toNV21` says that `formatToNV21` has exchanged its chroma bytes. -/
structure DataCallback where
  msg : DataMsg
  addrVir : ℤ
  size : ℤ
  moves : List Move
  toNV21 : Bool

/-- The fields of `CallbackNotifier` that are read for a frame. -/
structure CallbackNotifier where
  videoFrameEnabled : Bool
  videoRecEnabled : Bool
  previewFrameEnabled : Bool
  callingProcessName : String
  cbWidth : ℤ := 0
  cbHeight : ℤ := 0

namespace CallbackNotifier

variable {n : CallbackNotifier} {getMemory : ℤ → Bool} {b : V4l2Buf} {srcW srcH w h size : ℤ}

/-- `mGetMemoryCB(-1, size, 1, NULL)` gives a buffer with data; as a `size_t`, a negative size is
more than there is. -/
def granted (getMemory : ℤ → Bool) (size : ℤ) : Bool := 0 ≤ size && getMemory size

/-- The first part of `onNextFrameSW`. -/
def videoCallback (n : CallbackNotifier) (getMemory : ℤ → Bool) (src : View) :
    List DataCallback :=
  let framesize := (align16B src.width * src.height * 3).tdiv 2
  if n.videoFrameEnabled && n.videoRecEnabled && granted getMemory framesize then
    [⟨.videoFrame, src.addrVir, framesize, memcpy 0 0 framesize, false⟩]
  else []

/-- The second part; nothing if it divides by zero. -/
def previewCallback (n : CallbackNotifier) (getMemory : ℤ → Bool) (src : View) :
    Option (List DataCallback) :=
  if n.previewFrameEnabled then
    if n.callingProcessName = "com.android.facelock" then
      let size := ((160 : ℤ) * 120 * 3).tdiv 2
      if granted getMemory size then
        -- the callback is made whatever the scaling returns
        (yuv420spDownScale (align16B src.width) src.height 160 120).map fun r =>
          [⟨.previewFrame, src.addrVir, size, r.2, false⟩]
      else some []
    else
      let size := (n.cbWidth * n.cbHeight * 3).tdiv 2
      if granted getMemory size then
        (yuv420spDownScale (align16B src.width) src.height n.cbWidth n.cbHeight).map fun r =>
          [⟨.previewFrame, src.addrVir, size, r.2, src.format = .nv12⟩]
      else some []
  else some []

/-- Every byte of the buffer is from the frame of `framesize` bytes. -/
def Filled (ms : List Move) (size framesize : ℤ) : Prop :=
  ∀ a, 0 ≤ a → a < size → (∃ m ∈ ms, m.dst = a) ∧
    ∀ m ∈ ms, m.dst = a → 0 ≤ m.src ∧ m.src < framesize

/-- The callback size suits a frame of `srcW` times `srcH` samples: it is not larger, and its
chroma bytes are whole rows, but for the last byte. -/
def Fits (srcW srcH w h : ℤ) : Prop :=
  0 < w ∧ 0 < h ∧ w ≤ srcW ∧ h ≤ srcH ∧
    (h % 2 = 0 ∨ w = 1 ∨ w = 3 ∧ 3 ≤ h ∧ downScale srcW srcH w h ≠ 1)

/-- The size of the preview callbacks. -/
def previewSize (n : CallbackNotifier) : ℤ × ℤ :=
  if n.callingProcessName = "com.android.facelock" then (160, 120) else (n.cbWidth, n.cbHeight)

end CallbackNotifier

end Softwinner.Camera

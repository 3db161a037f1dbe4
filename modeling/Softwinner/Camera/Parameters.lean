import Mathlib.Data.Int.Notation
import Softwinner.Camera.OsalQueue

/-!
# `setParameters`

`CameraHardware::setParameters`, as the list of its accesses to what it shares with
`commandThread`: `mParameters`, the elements `mQueueElement`, the command queue and its
condition.  There is one element for each command, and the queue holds pointers to them; an
access to `data` changes what every pointer to the element stands for.

The command that stops the continuous pictures is queued first, in front of all checks but the one
for a device.  The parameters between it and the image effect (picture mode, formats, sizes, frame
rate, quality, rotation) are checked and stored, and those behind the focus are only stored.  Of the
former the model keeps whether the call gets past them.  `SetParameters.lean` has all of them.
-/

namespace Softwinner.Camera

/-- The commands of `CMD_QUEUE` that `setParameters` queues. -/
inductive Cmd
  | setColorEffect | setWhiteBalance | setFlashMode | setFocusMode | setExposureCompensation
  | stopContinuousSnap
  deriving DecidableEq, Repr

-- one less than `CMD_QUEUE_MAX`, the argument of `OSAL_QueueCreate`
def commandQueueSize : ℕ := 15

/-- The constants of the kernel headers that stand for the settings. -/
structure Codes where
  colorfxNone : ℤ
  colorfxBw : ℤ
  colorfxSepia : ℤ
  colorfxGrassGreen : ℤ
  colorfxNegative : ℤ
  whiteBalanceAuto : ℤ
  whiteBalanceDaylight : ℤ
  whiteBalanceCloudy : ℤ
  whiteBalanceFluorescentH : ℤ
  whiteBalanceIncandescent : ℤ
  whiteBalanceFluorescent : ℤ
  flashNone : ℤ
  flashAuto : ℤ
  flashFlash : ℤ
  flashTorch : ℤ
  flashRedEye : ℤ

/-- Which settings `mCameraConfig` supports. -/
structure Config where
  colorEffect : Bool
  whiteBalance : Bool
  exposureCompensation : Bool
  flashMode : Bool
  focusMode : Bool

/-- The entries of a `CameraParameters` that `setParameters` compares or queues. -/
structure Params where
  effect : Option String
  whiteBalance : Option String
  exposureCompensation : ℤ
  maxExposureCompensation : ℤ
  minExposureCompensation : ℤ
  flashMode : String
  zoom : ℤ
  maxZoom : ℤ
  focusMode : String
  focusAreas : String
  deriving DecidableEq, Repr

namespace Codes

variable (c : Codes)

/-- The value for an image effect, or -1. -/
def imageEffect (str : String) : ℤ :=
  if str = "none" then c.colorfxNone
  else if str = "mono" then c.colorfxBw
  else if str = "sepia" then c.colorfxSepia
  else if str = "aqua" then c.colorfxGrassGreen
  else if str = "negative" then c.colorfxNegative
  else -1

/-- The value for a white balance, or -1. -/
def white (str : String) : ℤ :=
  if str = "auto" then c.whiteBalanceAuto
  else if str = "daylight" then c.whiteBalanceDaylight
  else if str = "cloudy-daylight" then c.whiteBalanceCloudy
  else if str = "fluorescent" then c.whiteBalanceFluorescentH
  else if str = "incandescent" then c.whiteBalanceIncandescent
  else if str = "warm-fluorescent" then c.whiteBalanceFluorescent
  else -1

/-- The value for a flash mode, or -1. -/
def flash (str : String) : ℤ :=
  if str = "off" then c.flashNone
  else if str = "auto" then c.flashAuto
  else if str = "on" then c.flashFlash
  else if str = "torch" then c.flashTorch
  else if str = "red-eye" then c.flashRedEye
  else -1

end Codes

/-- One access to what is shared. -/
inductive Access
  /-- `mParameters` is changed to `p`. -/
  | setParam (p : Params)
  | setData (cmd : Cmd) (data : ℤ)
  /-- `OSAL_Queue`; its result is not looked at. -/
  | queue (cmd : Cmd)
  /-- `OSAL_QueueSetElem`. -/
  | queueSetElem (cmd : Cmd)
  | clearFirst
  | signal
  deriving DecidableEq, Repr

/-- An argument of `setParameters`, and the outcome of the checks that are not spelled out: of
everything before the image effect, of `checkFocusArea` and of `checkFocusMode`. -/
structure Request where
  params : Params
  /-- There is a device. -/
  device : Bool
  /-- The call cancels the continuous pictures, and the recorded mode is that of continuous
  pictures. -/
  stopsContinuous : Bool
  accepted : Bool
  focusAreaOk : Bool
  focusModeOk : Bool

/-- A part of `setParameters`: from `mParameters` to the accesses, and to `mParameters` behind it
unless it returns an error. -/
abbrev Part := Params → List Access × Option Params

/-- One part behind the other. -/
def Part.seq (p q : Part) : Part := fun cur =>
  match p cur with
  | (as, none) => (as, none)
  | (as, some cur) => (as ++ (q cur).1, (q cur).2)

/-- A value is recorded, put into its element, and queued. -/
def Part.send (cmd : Cmd) (data : ℤ) (cur : Params) : List Access × Option Params :=
  ([.setParam cur, .setData cmd data, .queue cmd], some cur)

section Parts

variable (c : Codes) (cfg : Config) (first : Bool) (r : Request)

def devicePart : Part := fun cur => ([], if r.device then some cur else none)

/-- The element of this command has no data. -/
def stopContinuousPart : Part := fun cur =>
  (if r.stopsContinuous then [.queue .stopContinuousSnap] else [], some cur)

/-- The checks up to the image effect. -/
def acceptedPart : Part := fun cur => ([], if r.accepted then some cur else none)

/-- A setting that is sent when it has changed. -/
def changedPart (supported : Bool) (cmd : Cmd) (code : String → ℤ) (new : Option String)
    (now : Params → Option String) (set : Params → String → Params) : Part := fun cur =>
  match new with
  | none => ([], some cur)
  | some str =>
    if supported = true ∧ (first = true ∨ now cur ≠ some str) ∧ 0 ≤ code str then
      Part.send cmd (code str) (set cur str)
    else ([], some cur)

def imageEffectPart : Part :=
  changedPart first cfg.colorEffect .setColorEffect c.imageEffect r.params.effect Params.effect
    fun p str => { p with effect := some str }

def whiteBalancePart : Part :=
  changedPart first cfg.whiteBalance .setWhiteBalance c.white r.params.whiteBalance
    Params.whiteBalance fun p str => { p with whiteBalance := some str }

def exposureCompensationPart : Part := fun cur =>
  let new := r.params.exposureCompensation
  if cfg.exposureCompensation = false then ([], some cur)
  else if r.params.minExposureCompensation ≤ new ∧ new ≤ r.params.maxExposureCompensation then
    if first = true ∨ cur.exposureCompensation ≠ new then
      Part.send .setExposureCompensation new { cur with exposureCompensation := new }
    else ([], some cur)
  else ([], none)

/-- The flash mode is recorded before it is looked at, and sent whether it has changed or not. -/
def flashModePart : Part := fun cur =>
  if cfg.flashMode = false then ([], some cur)
  else
    let str := r.params.flashMode
    let cur := { cur with flashMode := str }
    if 0 ≤ c.flash str then
      (.setParam cur :: (Part.send .setFlashMode (c.flash str) cur).1, some cur)
    else ([.setParam cur], some cur)

def zoomPart : Part := fun cur =>
  if 0 ≤ r.params.zoom ∧ r.params.zoom ≤ cur.maxZoom then
    ([.setParam { cur with zoom := r.params.zoom }], some { cur with zoom := r.params.zoom })
  else ([], none)

def focusPart : Part := fun cur =>
  if cfg.focusMode then
    if r.focusAreaOk = false ∨ r.focusModeOk = false then ([], none)
    else
      let mode := { cur with focusMode := r.params.focusMode }
      let (as, cur) :=
        if first = true ∨ cur.focusMode ≠ r.params.focusMode then
          ([.setParam mode, .queueSetElem .setFocusMode], mode)
        else ([], cur)
      if cur.focusAreas ≠ r.params.focusAreas then
        let cur := { cur with focusAreas := r.params.focusAreas }
        (as ++ [.setParam cur], some cur)
      else (as, some cur)
  else if r.params.focusMode = "fixed" then
    ([.setParam { cur with focusMode := "fixed" }], some { cur with focusMode := "fixed" })
  else ([], none)

/-- The end of the call. -/
def finishPart : Part := fun cur => ([.clearFirst, .signal], some cur)

/-- `setParameters`, with the value of `mFirstSetParameters`. -/
def setParameters : Part :=
  (devicePart r).seq <|
  (stopContinuousPart r).seq <|
  (acceptedPart r).seq <|
  (imageEffectPart c cfg first r).seq <|
  (whiteBalancePart c cfg first r).seq <|
  (exposureCompensationPart cfg first r).seq <|
  (flashModePart c cfg r).seq <|
  (zoomPart r).seq <|
  (focusPart cfg first r).seq finishPart

end Parts

end Softwinner.Camera

import Softwinner.Camera.Mappings

/-!
# The preview

`doStartPreview`, `doStopPreview`, `doTakePicture`, `doTakePictureEnd` and what calls them, from
`CameraHardware2.cpp`: a picture of another size than the preview's stops the device, starts it
again with one buffer, and the preview is started once more when the picture has been reported.

`step` is one call of the camera service, one command of the command thread, or one step of the
threads of the device.  Starting and stopping the preview and taking a picture hold `mObjectLock`;
`connectCamera`, `startRecording`, `cancelPicture` and `closeCamera` do not, and are taken as if
they did.  `Params` are the parameters that a call looks at.
-/

namespace Softwinner.Camera.Preview

open Framework Connection

/-! ## State -/

/-- `KEY_PICTURE_MODE`. -/
inductive PictureMode
  | normal | continuous | continuousFast | blink | smile
  deriving DecidableEq

/-- `pictureSize` is what `tryFmtSize` makes of the size of the picture, and `previewSize` is
`KEY_PREVIEW_CAPTURE_SIZE_WIDTH` and `_HEIGHT`; the last three tell the calling process. -/
structure Params where
  recordingHint : Bool
  pictureMode : PictureMode
  pictureSize : ℕ × ℕ
  previewSize : ℕ × ℕ
  videoSize : ℕ × ℕ
  fullSize : ℕ × ℕ
  fastPictureMode : Bool
  isUvc : Bool
  isImageCaptureIntent : Bool
  ctsVerifier : Bool
  ctsStub : Bool
  ctsMediastress : Bool

structure Env where
  driver : Driver
  params : Params

/-- The device, `mPreviewEnabled`, and `mCaptureWidth` with `mCaptureHeight`. -/
structure State where
  device : Connection.State
  previewEnabled : Bool
  captureSize : ℕ × ℕ

def initial : State := ⟨Connection.initial, false, (0, 0)⟩

/-- The size that a preview is captured with. -/
def Params.captureSize (p : Params) : ℕ × ℕ :=
  if p.isUvc = false ∨ p.ctsVerifier = true then p.previewSize
  else if p.recordingHint then p.videoSize
  else if p.fastPictureMode then p.fullSize
  else p.previewSize

namespace State

variable (s : State) (env : Env)

/-! ## Starting and stopping the preview -/

/-- `stopDeliveringFrames` and `stopDevice`. -/
def stopCapture : Option State :=
  (s.device.stopDeliveringFrames.stopDevice env.driver).map fun device =>
    { s with device := device }

/-- A device that is started is stopped. -/
def stopStarted : Option State :=
  if s.device.deviceState = .started then s.stopCapture env else some s

def doStopPreview : Option State :=
  if s.previewEnabled then
    (s.stopStarted env).map fun s => { s with previewEnabled := false }
  else some s

/-- `doStartPreview` behind `startDevice`. -/
def deliver : Option (State × Bool) :=
  match s.device.startDeliveringFrames env.driver with
  | (device, true) => some ({ s with device := device }, true)
  | (device, false) => (device.stopDevice env.driver).map fun device =>
      ({ s with device := device, previewEnabled := false }, false)

/-- `doStartPreview` behind `connectDevice`. -/
def startCapture : Option (State × Bool) :=
  let s := { s with captureSize := env.params.captureSize }
  match s.device.startDevice env.driver with
  | none => none
  | some (device, false) => some ({ s with device := device, previewEnabled := false }, false)
  | some (device, true) => { s with device := device }.deliver env

/-- `doStartPreview` with a device that is not started; `connectDevice` looks itself whether it is
connected. -/
def connectAndStart : Option (State × Bool) :=
  let s := { s with previewEnabled := true }
  match s.device.connectDevice env.driver with
  | (device, false) => some ({ s with device := device, previewEnabled := false }, false)
  | (device, true) => { s with device := device }.startCapture env

def doStartPreview : Option (State × Bool) :=
  if s.device.deviceState = .started ∧ s.previewEnabled then some (s, true)
  else (s.stopStarted env).bind fun s => s.connectAndStart env

/-! ## Pictures -/

def setTakePictureState (t : TakePictureState) : State :=
  { s with device := { s.device with takePictureState := t } }

/-- The preview that was on is started again. -/
def restartPreview (previewOn : Bool) : Option State :=
  if previewOn then (s.doStartPreview env).map Prod.fst else some s

/-- `doTakePicture` from `TAKE_PICTURE_NORMAL` on. -/
def capturePicture (previewOn : Bool) : Option State :=
  let s := { s.setTakePictureState .normal with captureSize := env.params.pictureSize }
  match s.device.startDevice env.driver with
  | none => none
  | some (device, false) => { s with device := device }.restartPreview env previewOn
  | some (device, true) =>
    match device.startDeliveringFrames env.driver with
    | (device, true) => some { s with device := device }
    | (device, false) =>
      ({ s with device := device }.setTakePictureState .null).restartPreview env previewOn

/-- A picture in the normal mode. -/
def takeNormalPicture : Option State :=
  let p := env.params
  if (p.fastPictureMode = true ∨ s.captureSize = p.pictureSize) ∧
      p.isImageCaptureIntent = false then
    some (s.setTakePictureState .fast)
  else
    ((s.doStopPreview env).bind fun t => t.stopStarted env).bind fun t =>
      t.capturePicture env s.previewEnabled

def doTakePicture : Option State :=
  if env.params.recordingHint then some (s.setTakePictureState .record)
  else
    match env.params.pictureMode with
    | .continuous => some (s.setTakePictureState .continuous)
    | .continuousFast => some (s.setTakePictureState .continuousFast)
    | .blink | .smile => some (s.setTakePictureState .smart)
    | .normal => s.takeNormalPicture env

def doTakePictureEnd : Option State :=
  if s.device.deviceState ≠ .constructed ∧ s.previewEnabled = false ∧
      env.params.fastPictureMode = false then
    (s.doStartPreview env).map Prod.fst
  else some s

/-- `CMD_QUEUE_PICTURE_MSG`. -/
def pictureMsg : Option State :=
  if env.params.ctsStub = false ∧ env.params.ctsMediastress = false ∧
      env.params.isImageCaptureIntent = false then s.doTakePictureEnd env
  else some s

/-! ## Recording, and the close -/

/-- The hint has been set to `TRUE`. -/
def startRecording : Option State :=
  let env := { env with params := { env.params with recordingHint := true } }
  if env.params.videoSize ≠ s.captureSize then
    (s.doStopPreview env).bind fun s => (s.doStartPreview env).map Prod.fst
  else some s

/-- `cleanupCamera`. -/
def closeCamera : Option State :=
  ((s.doStopPreview env).bind fun s => s.stopStarted env).map fun s =>
    { s with device := s.device.disconnectDevice.1 }

end State

/-! ## Steps -/

/-- The calls and commands, and the steps of the threads of the device. -/
inductive Act
  | connectCamera
  | startPreview
  | stopPreview
  | startRecording
  | takePicture
  | pictureMsg
  | stopContinuousSnap
  | cancelPicture
  | closeCamera
  | pause
  | frame (f : Connection.Frame)
  | pictureDone

/-- A step of a thread. -/
def thread (s : State) (call : Driver × Call) : Option State :=
  (Connection.step s.device call).map fun device => { s with device := device }

def step (s : State) : Env × Act → Option State
  | (env, .connectCamera) => some { s with device := (s.device.connectDevice env.driver).1 }
  | (env, .startPreview) => (s.doStartPreview env).map Prod.fst
  | (env, .stopPreview) => s.doStopPreview env
  | (env, .startRecording) => s.startRecording env
  | (env, .takePicture) => s.doTakePicture env
  | (env, .pictureMsg) => s.pictureMsg env
  | (env, .stopContinuousSnap) => (s.setTakePictureState .null).doTakePictureEnd env
  | (_, .cancelPicture) => some (s.setTakePictureState .null)
  | (env, .closeCamera) => s.closeCamera env
  | (env, .pause) => thread s (env.driver, .pause)
  | (env, .frame f) => thread s (env.driver, .frame f)
  | (env, .pictureDone) => thread s (env.driver, .pictureDone)

end Softwinner.Camera.Preview

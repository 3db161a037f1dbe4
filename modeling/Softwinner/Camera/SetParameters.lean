import Mathlib.Data.List.Infix
import Mathlib.Logic.Function.Basic
import Mathlib.Tactic.Common
import Mathlib.Tactic.SplitIfs
import Softwinner.Camera.Parameters

/-!
# The whole of `setParameters`

`CameraHardware::setParameters` goes through the keys one after the other.  A key is checked, and
then committed: recorded in `mParameters`, passed to `mCallbackNotifier`, queued for
`commandThread`.  A check that fails returns at once, and nothing is taken back.

The model has a stage for each check.  A stage reads the state and gives the list of its writes, or
the error that it returns; each write belongs to one stage, so that a stage leaves alone what the
others write.  `setParameters_commits` is what follows for a call: the stages in front of the first
failing check have committed their keys, and it and those behind it have changed nothing.

`CameraParameters` is not part of the sources.  `Lib` has what the function needs of it, together
with the conversions of the C library.  A call that dereferences a null pointer, overruns an array
or divides by zero has no result.
-/

namespace Softwinner.Camera.SetParameters

/-! ## Parameters -/

inductive Key
  | pictureMode | cancelContinuousPicture | continuousPicturePath | snapPath
  | isContinuousPictureFast | isImagecaptureIntent
  | previewFormat | pictureFormat | pictureSize | previewSize
  | previewCaptureSizeWidth | previewCaptureSizeHeight | captureFormat
  | videoSize | captureSizeWidth | captureSizeHeight | recordingHint
  | previewFpsRange | previewFrameRate | jpegQuality | rotation
  | effect | whiteBalance
  | exposureCompensation | maxExposureCompensation | minExposureCompensation
  | flashMode | maxZoom | zoom | focusMode | focusAreas | supportedFocusModes
  | gpsLatitude | gpsLongitude | gpsAltitude | gpsTimestamp | gpsProcessingMethod
  | jpegThumbnailWidth | jpegThumbnailHeight
  deriving DecidableEq

/-- A `CameraParameters`; `none` where `get` returns null. -/
abbrev Parameters := Key → Option String

/-- A value without the characters that end an entry of the flattened text. -/
def plain (v : String) : Bool := v.toList.all fun c => c != '=' && c != ';'

/-- The class `CameraParameters`: which values `set` takes, what its getters make of an entry, and
the texts that it writes for numbers and sizes.  `getSize` leaves its arguments alone where it
cannot read a size. -/
structure Lib where
  storable : String → Bool
  getInt : Option String → ℤ
  ofInt : ℤ → String
  getSize : ℤ × ℤ → Option String → ℤ × ℤ
  ofSize : ℤ × ℤ → String
  getRange : Option String → ℤ × ℤ
  atoi : List Char → ℤ
  storable_plain : ∀ v : String, plain v = true → storable v = true

/-- The library, the camera, and what the device answers.  `tryFmtSize` is numbered by its calls;
`thumbForVideo` is that both rates of `setVideoCaptureSize` are above 4.0, and `stack` what the
array of `checkFocusArea` holds before it is filled. -/
structure Env where
  lib : Lib
  codes : Codes
  config : Config
  device : Bool
  tryFmtSize : ℕ → ℤ × ℤ → Option (ℤ × ℤ)
  format : ℤ
  pixFmtYuyv : ℤ
  thumbForVideo : ℤ × ℤ → ℤ × ℤ → Bool
  ctsVerifier : Bool
  stack : ℕ → ℤ

/-! ## State -/

inductive Gps
  | latitude | longitude | altitude | timestamp | method
  deriving DecidableEq

def Gps.key : Gps → Key
  | .latitude => .gpsLatitude
  | .longitude => .gpsLongitude
  | .altitude => .gpsAltitude
  | .timestamp => .gpsTimestamp
  | .method => .gpsProcessingMethod

/-- The settings in `mCallbackNotifier`.  For the GPS settings it is the text they were read from;
`none` stands for 0 and for the empty method. -/
structure Notifier where
  folderPath : String
  snapPath : String
  isSinglePicture : Bool
  cbSize : ℤ × ℤ
  whiteBalance : ℤ
  gps : Gps → Option String
  thumbSize : ℤ × ℤ

/-- What is queued for `commandThread`; `other` are the commands of other calls. -/
inductive Command
  | set (cmd : Cmd)
  | other (n : ℕ)
  deriving DecidableEq

structure State where
  /-- `mParameters`. -/
  params : Parameters
  notifier : Notifier
  zoomRatio : ℤ
  oriention : ℤ
  imageCaptureIntent : Bool
  videoCapture : ℤ × ℤ
  /-- `mFirstSetParameters`. -/
  first : Bool
  /-- `mQueueElement[cmd].data`. -/
  data : Cmd → ℤ
  /-- `mQueueCommand`. -/
  queue : List Command

/-- The checks of `setParameters`, in their order, each with the writes up to the next one. -/
inductive Stage
  | device | stopContinuous | pictureMode | singlePicture | captureIntent
  | previewFormat | pictureFormat | pictureSize | previewSize | captureSize | videoSize
  | recordingHint | frameRate | jpegQuality | rotation | effect | whiteBalance | exposure
  | flash | zoom | focus | gps | thumbnail | finish
  deriving DecidableEq

def Stage.all : List Stage :=
  [.device, .stopContinuous, .pictureMode, .singlePicture, .captureIntent,
    .previewFormat, .pictureFormat, .pictureSize, .previewSize, .captureSize, .videoSize,
    .recordingHint, .frameRate, .jpegQuality, .rotation, .effect, .whiteBalance, .exposure,
    .flash, .zoom, .focus, .gps, .thumbnail, .finish]

/-- A write to the state. -/
inductive Write
  /-- `set` and `remove` of `mParameters`. -/
  | param (k : Key) (v : Option String)
  | folderPath (path : String)
  | snapPath (path : String)
  | singlePicture (b : Bool)
  | cbSize (p : ℤ × ℤ)
  | notifierWhiteBalance (n : ℤ)
  | gps (g : Gps) (v : Option String)
  | thumbSize (p : ℤ × ℤ)
  | zoomRatio (n : ℤ)
  | oriention (n : ℤ)
  | captureIntent (b : Bool)
  | videoCapture (p : ℤ × ℤ)
  | stopContinuous
  /-- The element of `cmd` is given a value, and queued. -/
  | send (cmd : Cmd) (data : ℤ)
  | queueSetElem (cmd : Cmd)
  | clearFirst

namespace State

variable (s : State)

/-- `OSAL_Queue`; its result is not looked at. -/
def enqueue (c : Command) : State :=
  { s with queue := (push commandQueueSize s.queue c).getD s.queue }

def setNotifier (n : Notifier) : State := { s with notifier := n }

def apply : Write → State
  | .param k v => { s with params := Function.update s.params k v }
  | .folderPath path => s.setNotifier { s.notifier with folderPath := path }
  | .snapPath path => s.setNotifier { s.notifier with snapPath := path }
  | .singlePicture b => s.setNotifier { s.notifier with isSinglePicture := b }
  | .cbSize p => s.setNotifier { s.notifier with cbSize := p }
  | .notifierWhiteBalance n => s.setNotifier { s.notifier with whiteBalance := n }
  | .gps g v => s.setNotifier { s.notifier with gps := Function.update s.notifier.gps g v }
  | .thumbSize p => s.setNotifier { s.notifier with thumbSize := p }
  | .zoomRatio n => { s with zoomRatio := n }
  | .oriention n => { s with oriention := n }
  | .captureIntent b => { s with imageCaptureIntent := b }
  | .videoCapture p => { s with videoCapture := p }
  | .stopContinuous => s.enqueue (.set .stopContinuousSnap)
  | .send cmd data => { s with data := Function.update s.data cmd data }.enqueue (.set cmd)
  | .queueSetElem cmd =>
    { s with queue := (pushNew commandQueueSize s.queue (.set cmd)).getD s.queue }
  | .clearFirst => { s with first := false }

def applyAll (ws : List Write) : State := ws.foldl apply s

end State

/-! ## The focus strings -/

/-- `strtok` with `"(,)"`. -/
def focusTokens (area : String) : List (List Char) :=
  (area.toList.splitOnP fun c => c = '(' || c = ',' || c = ')').filter (· ≠ [])

/-- `checkFocusArea`. -/
def checkFocusArea (e : Env) : Option String → Option Bool
  | none => some false
  | some area =>
    -- `temp` has 128 bytes
    if 128 ≤ area.utf8ByteSize then none
    else
      let tokens := focusTokens area
      if 5 < tokens.length then some false
      else
        let arr (i : ℕ) : ℤ := (tokens[i]?.map e.lib.atoi).getD (e.stack i)
        if arr 0 = 0 ∧ arr 1 = 0 ∧ arr 2 = 0 ∧ arr 3 = 0 ∧ arr 4 = 0 then some true
        else if arr 4 < 1 then some false
        else if (List.range 4).any fun i => arr i < -1000 || 1000 < arr i then some false
        else some (decide (¬ (arr 2 ≤ arr 0 ∨ arr 3 ≤ arr 1)))

/-- `checkFocusMode`: the mode is somewhere in the text of the supported ones. -/
def checkFocusMode : Option String → Option String → Option Bool
  | some str, some mode => some (decide (mode.toList <:+: str.toList))
  | _, _ => none

/-- The text up to the next `c`, which is copied to one of the six-byte arrays. -/
def cutField (c : Char) (str : List Char) : Option (List Char) :=
  match str.span (· ≠ c) with
  | (field, _ :: rest) => if field.length ≤ 6 then some rest else none
  | (_, []) => none

/-- The part of `parse_focus_areas` that takes the text apart; behind it are calls of the device. -/
def parseFocusAreas (str : String) : Option Unit := do
  let rest ← match str.toList.span (· ≠ '(') with
    | (_, _ :: rest) => some rest
    | (_, []) => none
  let rest ← cutField ',' rest
  let rest ← cutField ',' rest
  let rest ← cutField ',' rest
  let rest ← cutField ',' rest
  let _ ← cutField ')' rest
  return ()

/-! ## The stages -/

-- `-EINVAL`, `UNKNOWN_ERROR` and the error of an ioctl
def einval : ℤ := -22
def unknownError : ℤ := -2147483648
def ioctlError : ℤ := -1

def baseZoom : ℤ := 0

def pictureModes : List String := ["normal", "blink", "smile", "continuous", "continuous-fast"]

/-- The writes of a stage, or the error that it returns. -/
abbrev Result := Option (Except ℤ (List Write))

def done (ws : List Write) : Result := some (.ok ws)

def fails (err : ℤ) : Result := some (.error err)

section Parts

variable (e : Env) (r : Parameters) (s : State)

/-- `mParameters.set`. -/
def set (k : Key) (v : String) : List Write := if e.lib.storable v then [.param k (some v)] else []

def setInt (k : Key) (n : ℤ) : List Write := [.param k (some (e.lib.ofInt n))]

def stopContinuousPart : Result :=
  if s.params .pictureMode = some "continuous" ∧ r .cancelContinuousPicture = some "true" then
    done [.stopContinuous]
  else done []

/-- `strcpy` to one of the two paths. -/
def pathPart (known : List Write) (key : Key) (write : String → Write) (path : String) : Result :=
  if path.utf8ByteSize < 128 then done (known ++ set e key path ++ [write path]) else none

def pictureModePart : Result :=
  match r .pictureMode with
  | none => done []
  | some mode =>
    let known := if mode ∈ pictureModes then set e .pictureMode mode else []
    if mode = "continuous" ∨ mode = "continuous-fast" then
      match r .continuousPicturePath with
      | some path => pathPart e known .continuousPicturePath .folderPath path
      | none => done (known ++ set e .pictureMode "normal")
    else if mode = "normal" ∨ mode = "blink" ∨ mode = "smile" then
      match r .snapPath with
      | some path => pathPart e known .snapPath .snapPath path
      | none => done known
    else done known

def singlePicturePart : Result :=
  done [.singlePicture (decide (r .isContinuousPictureFast ≠ some "true"))]

def captureIntentPart : Result :=
  match r .isImagecaptureIntent with
  | none => done []
  | some v => done [.captureIntent (decide (v = "true"))]

def previewFormatPart : Result :=
  match r .previewFormat with
  | none => fails einval
  | some v =>
    if v = "yuv420sp" ∨ v = "yuv420p" then done (set e .previewFormat v) else fails einval

def pictureFormatPart : Result := if r .pictureFormat = some "jpeg" then done [] else fails einval

def pictureSize : ℤ × ℤ := e.lib.getSize (0, 0) (r .pictureSize)

def previewSize : ℤ × ℤ := e.lib.getSize (0, 0) (r .previewSize)

def Positive (p : ℤ × ℤ) : Prop := 0 < p.1 ∧ 0 < p.2

instance (p : ℤ × ℤ) : Decidable (Positive p) := inferInstanceAs (Decidable (_ ∧ _))

def pictureSizePart : Result :=
  if Positive (pictureSize e r) then
    done [.param .pictureSize (some (e.lib.ofSize (pictureSize e r)))]
  else fails einval

def previewSizePart : Result :=
  if Positive (previewSize e r) then
    done [.param .previewSize (some (e.lib.ofSize (previewSize e r))), .cbSize (previewSize e r)]
  else fails einval

/-- The size that the driver makes of the preview size. -/
def captureSize : Option (ℤ × ℤ) :=
  let isVga := e.ctsVerifier && decide (previewSize e r = (640, 480))
  match e.tryFmtSize 0 (if isVga then (1280, 960) else previewSize e r) with
  | none => none
  | some p => if isVga && decide (p.1 * 3 ≠ p.2 * 4) then e.tryFmtSize 1 (640, 480) else some p

def captureSizePart : Result :=
  match captureSize e r with
  | none => fails ioctlError
  | some p => done (setInt e .previewCaptureSizeWidth p.1 ++ setInt e .previewCaptureSizeHeight p.2 ++
      setInt e .captureFormat e.format)

/-- `new_video_width` and `new_video_height` start with the size of the driver. -/
def videoSize : ℤ × ℤ := e.lib.getSize ((captureSize e r).getD (0, 0)) (r .videoSize)

def setVideoCaptureSize (p : ℤ × ℤ) : List Write :=
  match e.tryFmtSize 2 p with
  | none => [.videoCapture p]
  | some q =>
    if e.thumbForVideo q p then
      .videoCapture q :: (setInt e .captureSizeWidth (q.1.tdiv 2) ++
        setInt e .captureSizeHeight (q.2.tdiv 2))
    else .videoCapture q :: (setInt e .captureSizeWidth q.1 ++ setInt e .captureSizeHeight q.2)

def videoSizePart : Result :=
  let p := videoSize e r
  if Positive p then
    if s.first = true ∨ e.lib.getSize (0, 0) (s.params .videoSize) ≠ p then
      done (.param .videoSize (some (e.lib.ofSize p)) ::
        if p ≠ s.videoCapture then setVideoCaptureSize e p else [])
    else done []
  else fails einval

def recordingHintPart : Result :=
  match r .recordingHint with
  | none => done []
  | some v => done (set e .recordingHint v)

def frameRate : ℤ := e.lib.getInt (r .previewFrameRate)

def FrameRateValid : Prop :=
  0 < frameRate e r ∧ 0 < (e.lib.getRange (r .previewFpsRange)).1 ∧
    (e.lib.getRange (r .previewFpsRange)).1 ≤ (e.lib.getRange (r .previewFpsRange)).2

instance : Decidable (FrameRateValid e r) := inferInstanceAs (Decidable (_ ∧ _))

/-- A changed number is recorded. -/
def changedInt (k : Key) (n : ℤ) (ws : List Write) : List Write :=
  if s.first = true ∨ e.lib.getInt (s.params k) ≠ n then setInt e k n ++ ws else []

def frameRatePart : Result :=
  if FrameRateValid e r then done (changedInt e s .previewFrameRate (frameRate e r) [])
  else if e.format = e.pixFmtYuyv then done []
  else fails einval

def jpegQuality : ℤ := e.lib.getInt (r .jpegQuality)

def jpegQualityPart : Result :=
  if 1 ≤ jpegQuality e r ∧ jpegQuality e r ≤ 100 then done (setInt e .jpegQuality (jpegQuality e r))
  else if e.format = e.pixFmtYuyv then done (setInt e .jpegQuality 90)
  else fails einval

def rotation : ℤ := e.lib.getInt (r .rotation)

def rotationPart : Result :=
  if 0 ≤ rotation e r then done (.oriention (rotation e r) :: setInt e .rotation (rotation e r))
  else fails einval

/-- A setting by name that is sent when it has changed; `strcmp` needs the recorded name. -/
def changedPart (supported : Bool) (cmd : Cmd) (code : String → ℤ) (k : Key)
    (also : String → List Write) : Result :=
  if supported then
    match r k with
    | none => done []
    | some new =>
      let ws := also new ++ if 0 ≤ code new then set e k new ++ [.send cmd (code new)] else []
      if s.first then done ws
      else
        match s.params k with
        | none => none
        | some now => if now ≠ new then done ws else done []
  else done []

def effectPart : Result :=
  changedPart e r s e.config.colorEffect .setColorEffect e.codes.imageEffect .effect fun _ => []

def whiteBalancePart : Result :=
  changedPart e r s e.config.whiteBalance .setWhiteBalance e.codes.white .whiteBalance
    fun new => [.notifierWhiteBalance (if new = "auto" then 0 else 1)]

def exposure : ℤ := e.lib.getInt (r .exposureCompensation)

def exposurePart : Result :=
  if e.config.exposureCompensation then
    if e.lib.getInt (r .minExposureCompensation) ≤ exposure e r ∧
        exposure e r ≤ e.lib.getInt (r .maxExposureCompensation) then
      done (changedInt e s .exposureCompensation (exposure e r)
        [.send .setExposureCompensation (exposure e r)])
    else fails einval
  else done []

def flashPart : Result :=
  if e.config.flashMode then
    match r .flashMode with
    | none => none
    | some new =>
      done (set e .flashMode new ++
        if 0 ≤ e.codes.flash new then
          set e .flashMode new ++ [.send .setFlashMode (e.codes.flash new)]
        else [])
  else done []

def zoom : ℤ := e.lib.getInt (r .zoom)

def maxZoom : ℤ := e.lib.getInt (s.params .maxZoom)

def zoomRatio (n max : ℤ) : ℤ := ((n + baseZoom) * 2 * 100).tdiv max + 100

def zoomPart : Result :=
  if 0 ≤ zoom e r ∧ zoom e r ≤ maxZoom e s then
    if maxZoom e s = 0 then none
    else done (setInt e .zoom (zoom e r) ++ [.zoomRatio (zoomRatio (zoom e r) (maxZoom e s))])
  else fails einval

/-- A focus mode that has passed its check. -/
def focusModeWrites (mode : String) : Option (List Write) :=
  let sent := set e .focusMode mode ++ [.queueSetElem .setFocusMode]
  if s.first then some sent
  else
    match s.params .focusMode with
    | none => none
    | some now => some (if now ≠ mode then sent else [])

/-- The focus mode, and the focus areas behind it. -/
def focusWrites (mode areas : String) : Option (List Write) := do
  let ws ← focusModeWrites e s mode
  let now ← s.params .focusAreas
  if now ≠ areas then
    parseFocusAreas areas
    return ws ++ set e .focusAreas areas
  else return ws

def focusPart : Result :=
  if e.config.focusMode then
    match checkFocusArea e (r .focusAreas) with
    | none => none
    | some false => fails einval
    | some true =>
      match checkFocusMode (s.params .supportedFocusModes) (r .focusMode) with
      | none => none
      | some false => fails einval
      | some true => ((r .focusMode).bind fun mode => (r .focusAreas).bind fun areas =>
          focusWrites e s mode areas).map Except.ok
  else
    match r .focusMode with
    | none => none
    | some mode => if mode = "fixed" then done (set e .focusMode "fixed") else fails einval

/-- One of the GPS settings. -/
def gpsWrites (g : Gps) : List Write :=
  match r g.key with
  | some v => .gps g (some v) :: set e g.key v
  | none => [.gps g none, .param g.key none]

/-- `mGpsMethod` has 100 bytes. -/
def gpsPart : Result :=
  if (r .gpsProcessingMethod).all (fun v => v.utf8ByteSize < 100) then
    done ([Gps.latitude, .longitude, .altitude, .timestamp, .method].flatMap (gpsWrites e r))
  else none

def thumbnailPart : Result :=
  let w := e.lib.getInt (r .jpegThumbnailWidth)
  let h := e.lib.getInt (r .jpegThumbnailHeight)
  if 0 ≤ w ∧ 0 ≤ h then
    done (.thumbSize (w, h) :: (setInt e .jpegThumbnailWidth w ++ setInt e .jpegThumbnailHeight h))
  else done []

/-- What a stage does. -/
def part : Stage → Result
  | .device => if e.device then done [] else fails unknownError
  | .stopContinuous => stopContinuousPart r s
  | .pictureMode => pictureModePart e r
  | .singlePicture => singlePicturePart r
  | .captureIntent => captureIntentPart r
  | .previewFormat => previewFormatPart e r
  | .pictureFormat => pictureFormatPart r
  | .pictureSize => pictureSizePart e r
  | .previewSize => previewSizePart e r
  | .captureSize => captureSizePart e r
  | .videoSize => videoSizePart e r s
  | .recordingHint => recordingHintPart e r
  | .frameRate => frameRatePart e r s
  | .jpegQuality => jpegQualityPart e r
  | .rotation => rotationPart e r
  | .effect => effectPart e r s
  | .whiteBalance => whiteBalancePart e r s
  | .exposure => exposurePart e r s
  | .flash => flashPart e r
  | .zoom => zoomPart e r s
  | .focus => focusPart e r s
  | .gps => gpsPart e r
  | .thumbnail => thumbnailPart e r
  -- the condition is signalled too
  | .finish => done [.clearFirst]

/-- Stages one after the other; the return value and the state behind them. -/
def runStages : List Stage → State → Option (ℤ × State)
  | [], s => some (0, s)
  | st :: sts, s =>
    match part e r s st with
    | none => none
    | some (.error err) => some (err, s)
    | some (.ok ws) => runStages sts (s.applyAll ws)

/-- `setParameters`, with the parameters unflattened. -/
def setParameters : Option (ℤ × State) := runStages e r Stage.all s

end Parts

/-! ## What a stage writes -/

/-- The stage that records a key; the other keys are only read. -/
def Key.stage : Key → Option Stage
  | .pictureMode | .continuousPicturePath | .snapPath => some .pictureMode
  | .previewFormat => some .previewFormat
  | .pictureSize => some .pictureSize
  | .previewSize => some .previewSize
  | .previewCaptureSizeWidth | .previewCaptureSizeHeight | .captureFormat => some .captureSize
  | .videoSize | .captureSizeWidth | .captureSizeHeight => some .videoSize
  | .recordingHint => some .recordingHint
  | .previewFrameRate => some .frameRate
  | .jpegQuality => some .jpegQuality
  | .rotation => some .rotation
  | .effect => some .effect
  | .whiteBalance => some .whiteBalance
  | .exposureCompensation => some .exposure
  | .flashMode => some .flash
  | .zoom => some .zoom
  | .focusMode | .focusAreas => some .focus
  | .gpsLatitude | .gpsLongitude | .gpsAltitude | .gpsTimestamp | .gpsProcessingMethod => some .gps
  | .jpegThumbnailWidth | .jpegThumbnailHeight => some .thumbnail
  | .cancelContinuousPicture | .isContinuousPictureFast | .isImagecaptureIntent | .pictureFormat
  | .previewFpsRange | .maxExposureCompensation | .minExposureCompensation | .maxZoom
  | .supportedFocusModes => none

/-- The stage that sends a command. -/
def cmdStage : Cmd → Stage
  | .setColorEffect => .effect
  | .setWhiteBalance => .whiteBalance
  | .setExposureCompensation => .exposure
  | .setFlashMode => .flash
  | .setFocusMode => .focus
  | .stopContinuousSnap => .stopContinuous

def Command.stage : Command → Option Stage
  | .set cmd => some (cmdStage cmd)
  | .other _ => none

def Write.stage : Write → Option Stage
  | .param k _ => k.stage
  | .folderPath _ | .snapPath _ => some .pictureMode
  | .singlePicture _ => some .singlePicture
  | .cbSize _ => some .previewSize
  | .notifierWhiteBalance _ => some .whiteBalance
  | .gps _ _ => some .gps
  | .thumbSize _ => some .thumbnail
  | .zoomRatio _ => some .zoom
  | .oriention _ => some .rotation
  | .captureIntent _ => some .captureIntent
  | .videoCapture _ => some .videoSize
  | .stopContinuous => some .stopContinuous
  | .send cmd _ | .queueSetElem cmd => some (cmdStage cmd)
  | .clearFirst => some .finish

/-- The settings of `mCallbackNotifier` that a stage passes are the same. -/
structure Notifier.Same (n n' : Notifier) (st : Stage) : Prop where
  folderPath : st = .pictureMode → n'.folderPath = n.folderPath
  snapPath : st = .pictureMode → n'.snapPath = n.snapPath
  singlePicture : st = .singlePicture → n'.isSinglePicture = n.isSinglePicture
  cbSize : st = .previewSize → n'.cbSize = n.cbSize
  whiteBalance : st = .whiteBalance → n'.whiteBalance = n.whiteBalance
  gps : st = .gps → n'.gps = n.gps
  thumbSize : st = .thumbnail → n'.thumbSize = n.thumbSize

/-- What belongs to a stage is as before: its keys, the settings it passes, its commands in the
queue and their elements. -/
structure Untouched (st : Stage) (s s' : State) : Prop where
  params : ∀ k, k.stage = some st → s'.params k = s.params k
  notifier : s.notifier.Same s'.notifier st
  zoomRatio : st = .zoom → s'.zoomRatio = s.zoomRatio
  oriention : st = .rotation → s'.oriention = s.oriention
  queue : ∃ new, s'.queue = s.queue ++ new ∧ ∀ c ∈ new, c.stage ≠ some st
  data : ∀ cmd, cmdStage cmd = st → s'.data cmd = s.data cmd

/-- The keys that no stage records are as before. -/
def ReadOnly (s s' : State) : Prop := ∀ k : Key, k.stage = none → s'.params k = s.params k

section Frame

variable {e : Env} {r : Parameters} {s s' s'' : State} {st : Stage} {w : Write} {ws : List Write}

lemma Notifier.Same.refl (n : Notifier) (st : Stage) : n.Same n st :=
  ⟨fun _ => rfl, fun _ => rfl, fun _ => rfl, fun _ => rfl, fun _ => rfl, fun _ => rfl, fun _ => rfl⟩

lemma Notifier.Same.trans {n n' n'' : Notifier} (h : n.Same n' st) (h' : n'.Same n'' st) :
    n.Same n'' st :=
  ⟨fun hst => (h'.folderPath hst).trans (h.folderPath hst),
    fun hst => (h'.snapPath hst).trans (h.snapPath hst),
    fun hst => (h'.singlePicture hst).trans (h.singlePicture hst),
    fun hst => (h'.cbSize hst).trans (h.cbSize hst),
    fun hst => (h'.whiteBalance hst).trans (h.whiteBalance hst),
    fun hst => (h'.gps hst).trans (h.gps hst),
    fun hst => (h'.thumbSize hst).trans (h.thumbSize hst)⟩

lemma Untouched.refl (st : Stage) (s : State) : Untouched st s s :=
  ⟨fun _ _ => rfl, .refl _ _, fun _ => rfl, fun _ => rfl, ⟨[], by simp, by simp⟩, fun _ _ => rfl⟩

lemma Untouched.trans (h : Untouched st s s') (h' : Untouched st s' s'') : Untouched st s s'' := by
  obtain ⟨new, hnew, hstage⟩ := h.queue
  obtain ⟨new', hnew', hstage'⟩ := h'.queue
  refine ⟨fun k hk => (h'.params k hk).trans (h.params k hk), h.notifier.trans h'.notifier,
    fun hst => (h'.zoomRatio hst).trans (h.zoomRatio hst),
    fun hst => (h'.oriention hst).trans (h.oriention hst), ⟨new ++ new', ?_, fun c hc => ?_⟩,
    fun cmd hcmd => (h'.data cmd hcmd).trans (h.data cmd hcmd)⟩
  · rw [hnew', hnew, List.append_assoc]
  · rcases List.mem_append.mp hc with hc | hc
    · exact hstage c hc
    · exact hstage' c hc

/-- A queue that a command may have been added to. -/
lemma getD_push (q : List Command) (c : Command) :
    ∃ new, (push commandQueueSize q c).getD q = q ++ new ∧ ∀ x ∈ new, x = c := by
  unfold push
  split_ifs
  · exact ⟨[c], rfl, fun x hx => List.mem_singleton.mp hx⟩
  · exact ⟨[], by simp, by simp⟩

lemma getD_pushNew (q : List Command) (c : Command) :
    ∃ new, (pushNew commandQueueSize q c).getD q = q ++ new ∧ ∀ x ∈ new, x = c := by
  unfold pushNew
  split_ifs
  · exact ⟨[], by simp, by simp⟩
  · exact ⟨[c], rfl, fun x hx => List.mem_singleton.mp hx⟩
  · exact ⟨[], by simp, by simp⟩

lemma untouched_setNotifier {n : Notifier} (hn : s.notifier.Same n st) :
    Untouched st s (s.setNotifier n) :=
  ⟨fun _ _ => rfl, hn, fun _ => rfl, fun _ => rfl, ⟨[], by simp [State.setNotifier], by simp⟩,
    fun _ _ => rfl⟩

/-- A write leaves alone what does not belong to its stage. -/
lemma untouched_apply (hw : w.stage ≠ some st) : Untouched st s (s.apply w) := by
  have hown : ∀ {st' : Stage} {P : Prop}, w.stage = some st' → st = st' → P := by
    rintro st' P hst' rfl
    exact absurd hst' hw
  have hadded : ∀ {q q' : List Command} {c : Command}, c.stage ≠ some st →
      (∃ new, q' = q ++ new ∧ ∀ x ∈ new, x = c) →
      ∃ new, q' = q ++ new ∧ ∀ x ∈ new, x.stage ≠ some st := by
    rintro q q' c hc ⟨new, hnew, hall⟩
    exact ⟨new, hnew, fun x hx => hall x hx ▸ hc⟩
  have hsame : ∃ new, s.queue = s.queue ++ new ∧ ∀ c ∈ new, Command.stage c ≠ some st :=
    ⟨[], by simp, by simp⟩
  have hn := Notifier.Same.refl s.notifier st
  cases w with
  | param k v =>
    refine ⟨fun k' hk' => Function.update_of_ne ?_ _ _, hn, fun _ => rfl, fun _ => rfl, hsame,
      fun _ _ => rfl⟩
    rintro rfl
    exact hw hk'
  | folderPath path =>
    exact untouched_setNotifier ⟨hown rfl, hn.snapPath, hn.singlePicture, hn.cbSize,
      hn.whiteBalance, hn.gps, hn.thumbSize⟩
  | snapPath path =>
    exact untouched_setNotifier ⟨hn.folderPath, hown rfl, hn.singlePicture, hn.cbSize,
      hn.whiteBalance, hn.gps, hn.thumbSize⟩
  | singlePicture b =>
    exact untouched_setNotifier ⟨hn.folderPath, hn.snapPath, hown rfl, hn.cbSize,
      hn.whiteBalance, hn.gps, hn.thumbSize⟩
  | cbSize p =>
    exact untouched_setNotifier ⟨hn.folderPath, hn.snapPath, hn.singlePicture, hown rfl,
      hn.whiteBalance, hn.gps, hn.thumbSize⟩
  | notifierWhiteBalance n =>
    exact untouched_setNotifier ⟨hn.folderPath, hn.snapPath, hn.singlePicture, hn.cbSize,
      hown rfl, hn.gps, hn.thumbSize⟩
  | gps g v =>
    exact untouched_setNotifier ⟨hn.folderPath, hn.snapPath, hn.singlePicture, hn.cbSize,
      hn.whiteBalance, hown rfl, hn.thumbSize⟩
  | thumbSize p =>
    exact untouched_setNotifier ⟨hn.folderPath, hn.snapPath, hn.singlePicture, hn.cbSize,
      hn.whiteBalance, hn.gps, hown rfl⟩
  | zoomRatio n => exact ⟨fun _ _ => rfl, hn, hown rfl, fun _ => rfl, hsame, fun _ _ => rfl⟩
  | oriention n => exact ⟨fun _ _ => rfl, hn, fun _ => rfl, hown rfl, hsame, fun _ _ => rfl⟩
  | captureIntent b => exact ⟨fun _ _ => rfl, hn, fun _ => rfl, fun _ => rfl, hsame, fun _ _ => rfl⟩
  | videoCapture p => exact ⟨fun _ _ => rfl, hn, fun _ => rfl, fun _ => rfl, hsame, fun _ _ => rfl⟩
  | stopContinuous =>
    exact ⟨fun _ _ => rfl, hn, fun _ => rfl, fun _ => rfl,
      hadded (c := .set .stopContinuousSnap) hw (getD_push _ _), fun _ _ => rfl⟩
  | send cmd data =>
    refine ⟨fun _ _ => rfl, hn, fun _ => rfl, fun _ => rfl,
      hadded (c := .set cmd) hw (getD_push _ _), fun cmd' hcmd => Function.update_of_ne ?_ _ _⟩
    rintro rfl
    exact hw (congrArg some hcmd)
  | queueSetElem cmd =>
    exact ⟨fun _ _ => rfl, hn, fun _ => rfl, fun _ => rfl,
      hadded (c := .set cmd) hw (getD_pushNew _ _), fun _ _ => rfl⟩
  | clearFirst => exact ⟨fun _ _ => rfl, hn, fun _ => rfl, fun _ => rfl, hsame, fun _ _ => rfl⟩

lemma untouched_applyAll (hws : ∀ w ∈ ws, w.stage ≠ some st) : Untouched st s (s.applyAll ws) := by
  induction ws generalizing s with
  | nil => exact .refl st s
  | cons w ws ih =>
    rw [List.forall_mem_cons] at hws
    exact (untouched_apply hws.1).trans (ih hws.2)

/-- Writes that belong to stages do not change what is only read. -/
lemma readOnly_applyAll (hws : ∀ w ∈ ws, w.stage ≠ none) : ReadOnly s (s.applyAll ws) := by
  induction ws generalizing s with
  | nil => exact fun _ _ => rfl
  | cons w ws ih =>
    rw [List.forall_mem_cons] at hws
    intro k hk
    refine (ih hws.2 k hk).trans ?_
    cases w with
    | param k' v =>
      refine Function.update_of_ne ?_ _ _
      rintro rfl
      exact hws.1 hk
    | _ => rfl

end Frame

/-! ## The checks, and what has been committed -/

section Checks

variable (e : Env) (r : Parameters) (s : State)

/-- The check of a stage does not fail. -/
def Passes : Stage → Prop
  | .device => e.device = true
  | .previewFormat => r .previewFormat = some "yuv420sp" ∨ r .previewFormat = some "yuv420p"
  | .pictureFormat => r .pictureFormat = some "jpeg"
  | .pictureSize => Positive (pictureSize e r)
  | .previewSize => Positive (previewSize e r)
  | .captureSize => captureSize e r ≠ none
  | .videoSize => Positive (videoSize e r)
  | .frameRate => FrameRateValid e r ∨ e.format = e.pixFmtYuyv
  | .jpegQuality => (1 ≤ jpegQuality e r ∧ jpegQuality e r ≤ 100) ∨ e.format = e.pixFmtYuyv
  | .rotation => 0 ≤ rotation e r
  | .exposure => e.config.exposureCompensation = true →
      e.lib.getInt (r .minExposureCompensation) ≤ exposure e r ∧
        exposure e r ≤ e.lib.getInt (r .maxExposureCompensation)
  | .zoom => 0 ≤ zoom e r ∧ zoom e r ≤ maxZoom e s
  | .focus =>
    if e.config.focusMode = true then checkFocusArea e (r .focusAreas) = some true ∧
      checkFocusMode (s.params .supportedFocusModes) (r .focusMode) = some true
    else r .focusMode = some "fixed"
  | _ => True

/-- `mParameters` has the number: as `set` writes it, or in another form that `getInt` reads. -/
def RecordsInt (k : Key) (n : ℤ) : Prop :=
  s.params k = some (e.lib.ofInt n) ∨ e.lib.getInt (s.params k) = n

def RecordsSize (k : Key) (p : ℤ × ℤ) : Prop :=
  s.params k = some (e.lib.ofSize p) ∨ e.lib.getSize (0, 0) (s.params k) = p

/-- `mParameters` has the name of a setting, if there is a code for it. -/
def RecordsName (code : String → ℤ) (k : Key) : Prop :=
  ∀ v, r k = some v → 0 ≤ code v → s.params k = some v

/-- `mParameters` has the text, if `set` takes it. -/
def RecordsText (k : Key) : Prop :=
  ∀ v, r k = some v → e.lib.storable v = true → s.params k = some v

/-- What is known of the keys of a stage that has been committed. -/
def Committed : Stage → Prop
  | .pictureMode => ∀ v, r .pictureMode = some v → v ∈ pictureModes →
      (v = "continuous" ∨ v = "continuous-fast" → r .continuousPicturePath ≠ none) →
      s.params .pictureMode = some v
  | .previewFormat => s.params .previewFormat = r .previewFormat
  | .pictureSize => RecordsSize e s .pictureSize (pictureSize e r)
  | .previewSize => RecordsSize e s .previewSize (previewSize e r) ∧
      s.notifier.cbSize = previewSize e r
  | .videoSize => RecordsSize e s .videoSize (videoSize e r)
  | .frameRate => FrameRateValid e r → RecordsInt e s .previewFrameRate (frameRate e r)
  | .jpegQuality => 1 ≤ jpegQuality e r → jpegQuality e r ≤ 100 →
      RecordsInt e s .jpegQuality (jpegQuality e r)
  | .rotation => RecordsInt e s .rotation (rotation e r) ∧ s.oriention = rotation e r
  | .effect => e.config.colorEffect = true → RecordsName r s e.codes.imageEffect .effect
  | .whiteBalance => e.config.whiteBalance = true → RecordsName r s e.codes.white .whiteBalance
  | .exposure => e.config.exposureCompensation = true →
      RecordsInt e s .exposureCompensation (exposure e r)
  | .flash => e.config.flashMode = true → RecordsName r s e.codes.flash .flashMode
  | .zoom => RecordsInt e s .zoom (zoom e r) ∧
      s.zoomRatio = zoomRatio (zoom e r) (maxZoom e s)
  | .focus => RecordsText e r s .focusMode ∧
      (e.config.focusMode = true → RecordsText e r s .focusAreas)
  | _ => True

end Checks

section Stages

variable {e : Env} {r : Parameters} {s s' s'' : State} {st : Stage} {ws : List Write}

/-- The checks look at the call, and at what is only read. -/
lemma passes_congr (h : ReadOnly s s') : Passes e r s' st ↔ Passes e r s st := by
  cases st with
  | zoom => simp only [Passes, maxZoom, h .maxZoom rfl]
  | focus => simp only [Passes, h .supportedFocusModes rfl]
  | _ => exact Iff.rfl

/-- What has been committed stays. -/
lemma Committed.keep (h : Committed e r s st) (hu : Untouched st s s') (hro : ReadOnly s s') :
    Committed e r s' st := by
  have hkey := hu.params
  cases st with
  | pictureMode => simpa only [Committed, hkey .pictureMode rfl] using h
  | previewFormat => simpa only [Committed, hkey .previewFormat rfl] using h
  | pictureSize => simpa only [Committed, RecordsSize, hkey .pictureSize rfl] using h
  | previewSize =>
    simpa only [Committed, RecordsSize, hkey .previewSize rfl, hu.notifier.cbSize rfl] using h
  | videoSize => simpa only [Committed, RecordsSize, hkey .videoSize rfl] using h
  | frameRate => simpa only [Committed, RecordsInt, hkey .previewFrameRate rfl] using h
  | jpegQuality => simpa only [Committed, RecordsInt, hkey .jpegQuality rfl] using h
  | rotation => simpa only [Committed, RecordsInt, hkey .rotation rfl, hu.oriention rfl] using h
  | effect => simpa only [Committed, RecordsName, hkey .effect rfl] using h
  | whiteBalance => simpa only [Committed, RecordsName, hkey .whiteBalance rfl] using h
  | exposure => simpa only [Committed, RecordsInt, hkey .exposureCompensation rfl] using h
  | flash => simpa only [Committed, RecordsName, hkey .flashMode rfl] using h
  | zoom =>
    simpa only [Committed, RecordsInt, maxZoom, hkey .zoom rfl, hu.zoomRatio rfl,
      hro .maxZoom rfl] using h
  | focus =>
    simpa only [Committed, RecordsText, hkey .focusMode rfl, hkey .focusAreas rfl] using h
  | _ => trivial

/-! ## Each stage -/

/-- What a stage may return: writes of its own that commit it if its check passes, and an error
otherwise. -/
def Good (e : Env) (r : Parameters) (s : State) (st : Stage) : Result → Prop
  | none => True
  | some (.error err) => err ≠ 0 ∧ ¬ Passes e r s st
  | some (.ok ws) =>
    (∀ w ∈ ws, w.stage = some st) ∧ Passes e r s st ∧ Committed e r (s.applyAll ws) st

lemma good_done_nil (hp : Passes e r s st) (hc : Committed e r s st) :
    Good e r s st (done []) :=
  ⟨fun _ hw => absurd hw List.not_mem_nil, hp, hc⟩

section Writes

variable {k k' : Key} {v : String} {n : ℤ} {w : Write}

lemma stage_of_mem_set (hk : k.stage = some st) (hw : w ∈ set e k v) : w.stage = some st := by
  unfold set at hw
  split_ifs at hw
  · obtain rfl := List.mem_singleton.mp hw
    exact hk
  · exact absurd hw List.not_mem_nil

lemma stage_of_mem_setInt (hk : k.stage = some st) (hw : w ∈ setInt e k n) : w.stage = some st := by
  obtain rfl := List.mem_singleton.mp hw
  exact hk

@[simp] lemma applyAll_nil : s.applyAll [] = s := rfl

@[simp] lemma applyAll_cons : s.applyAll (w :: ws) = (s.apply w).applyAll ws := rfl

@[simp] lemma applyAll_append {ws' : List Write} :
    s.applyAll (ws ++ ws') = (s.applyAll ws).applyAll ws' := List.foldl_append

@[simp] lemma applyAll_set (hv : e.lib.storable v = true) :
    s.applyAll (set e k v) = s.apply (.param k (some v)) := by
  rw [set, if_pos hv]
  rfl

@[simp] lemma applyAll_setInt :
    s.applyAll (setInt e k n) = s.apply (.param k (some (e.lib.ofInt n))) := rfl

@[simp] lemma params_send {cmd : Cmd} {data : ℤ} : (s.apply (.send cmd data)).params = s.params := rfl

@[simp] lemma params_queueSetElem {cmd : Cmd} :
    (s.apply (.queueSetElem cmd)).params = s.params := rfl

@[simp] lemma params_zoomRatio {m : ℤ} : (s.apply (.zoomRatio m)).params = s.params := rfl

@[simp] lemma params_param_self {x : Option String} : (s.apply (.param k x)).params k = x :=
  Function.update_self _ _ _

/-- Other keys keep their entries. -/
lemma params_applyAll_set (hk : k' ≠ k) : (s.applyAll (set e k v)).params k' = s.params k' := by
  unfold set
  split_ifs
  · exact Function.update_of_ne hk _ _
  · rfl

end Writes

lemma good_stopContinuous : Good e r s .stopContinuous (stopContinuousPart r s) := by
  unfold stopContinuousPart
  split_ifs
  · refine ⟨fun w hw => ?_, trivial, trivial⟩
    obtain rfl := List.mem_singleton.mp hw
    rfl
  · exact good_done_nil trivial trivial

/-- The names that the code knows can be stored. -/
lemma storable_of_mem {v : String} {vs : List String} (hvs : vs.all plain = true) (hv : v ∈ vs) :
    e.lib.storable v = true :=
  e.lib.storable_plain v (List.all_eq_true.mp hvs v hv)

lemma storable_pictureMode {v : String} (hv : v ∈ pictureModes) : e.lib.storable v = true :=
  storable_of_mem (by decide) hv

/-- A path is stored behind the writes to the mode. -/
lemma good_pathPart {known : List Write} {k : Key} {write : String → Write} {path : String}
    (hown : ∀ w ∈ known, w.stage = some .pictureMode) (hk : k.stage = some .pictureMode)
    (hwrite : (write path).stage = some .pictureMode) (hne : k ≠ .pictureMode)
    (hparams : ∀ s : State, (s.apply (write path)).params = s.params)
    (hc : ∀ s' : State, s'.params .pictureMode = (s.applyAll known).params .pictureMode →
      Committed e r s' .pictureMode) :
    Good e r s .pictureMode (pathPart e known k write path) := by
  unfold pathPart
  split_ifs
  · refine ⟨fun w hw => ?_, trivial, hc _ ?_⟩
    · rcases List.mem_append.mp hw with hw | hw
      · rcases List.mem_append.mp hw with hw | hw
        · exact hown w hw
        · exact stage_of_mem_set hk hw
      · obtain rfl := List.mem_singleton.mp hw
        exact hwrite
    · rw [applyAll_append, applyAll_append, applyAll_cons, applyAll_nil, hparams,
        params_applyAll_set (Ne.symm hne)]
  · trivial

lemma good_pictureMode : Good e r s .pictureMode (pictureModePart e r) := by
  unfold pictureModePart
  cases hmode : r .pictureMode with
  | none =>
    refine good_done_nil trivial fun v hv => ?_
    rw [hmode] at hv
    cases hv
  | some mode =>
    have hown : ∀ w ∈ (if mode ∈ pictureModes then set e .pictureMode mode else []),
        w.stage = some .pictureMode := by
      intro w hw
      split_ifs at hw
      · exact stage_of_mem_set rfl hw
      · exact absurd hw List.not_mem_nil
    have hc : ∀ s' : State, s'.params .pictureMode = (s.applyAll
        (if mode ∈ pictureModes then set e .pictureMode mode else [])).params .pictureMode →
        Committed e r s' .pictureMode := by
      intro s' hs' v hv hmem _
      obtain rfl := Option.some.inj (hmode.symm.trans hv)
      rw [hs', if_pos hmem, applyAll_set (storable_pictureMode hmem)]
      exact params_param_self
    simp only
    generalize (if mode ∈ pictureModes then set e .pictureMode mode else []) = known at hown hc ⊢
    split_ifs with hcont hpic
    · cases hnew : r .continuousPicturePath with
      | some path => exact good_pathPart hown rfl rfl (by decide) (fun _ => rfl) hc
      | none =>
        refine ⟨fun w hw => ?_, trivial, fun v hv hmem hneeds => ?_⟩
        · rcases List.mem_append.mp hw with hw | hw
          · exact hown w hw
          · exact stage_of_mem_set rfl hw
        · obtain rfl := Option.some.inj (hmode.symm.trans hv)
          exact absurd hnew (hneeds hcont)
    · cases hnew : r .snapPath with
      | some path => exact good_pathPart hown rfl rfl (by decide) (fun _ => rfl) hc
      | none => exact ⟨hown, trivial, hc _ rfl⟩
    · exact ⟨hown, trivial, hc _ rfl⟩

lemma good_singlePicture : Good e r s .singlePicture (singlePicturePart r) := by
  refine ⟨fun w hw => ?_, trivial, trivial⟩
  obtain rfl := List.mem_singleton.mp hw
  rfl

lemma good_captureIntent : Good e r s .captureIntent (captureIntentPart r) := by
  unfold captureIntentPart
  cases r .isImagecaptureIntent with
  | none => exact good_done_nil trivial trivial
  | some v =>
    refine ⟨fun w hw => ?_, trivial, trivial⟩
    obtain rfl := List.mem_singleton.mp hw
    rfl

lemma good_previewFormat : Good e r s .previewFormat (previewFormatPart e r) := by
  unfold previewFormatPart
  cases hv : r .previewFormat with
  | none => exact ⟨by decide, by simp [Passes, hv]⟩
  | some v =>
    simp only
    split_ifs with hok
    · have hmem : v ∈ ["yuv420sp", "yuv420p"] := by simpa using hok
      have hstore : e.lib.storable v = true := storable_of_mem (by decide) hmem
      refine ⟨fun w hw => stage_of_mem_set rfl hw, by simpa [Passes, hv] using hok, ?_⟩
      rw [applyAll_set hstore, Committed, params_param_self, hv]
    · exact ⟨by decide, by simpa [Passes, hv] using hok⟩

lemma good_pictureFormat : Good e r s .pictureFormat (pictureFormatPart r) := by
  unfold pictureFormatPart
  split_ifs with hok
  · exact good_done_nil hok trivial
  · exact ⟨by decide, hok⟩

lemma good_pictureSize : Good e r s .pictureSize (pictureSizePart e r) := by
  unfold pictureSizePart
  split_ifs with hok
  · refine ⟨fun w hw => ?_, hok, Or.inl params_param_self⟩
    obtain rfl := List.mem_singleton.mp hw
    rfl
  · exact ⟨by decide, hok⟩

lemma good_previewSize : Good e r s .previewSize (previewSizePart e r) := by
  unfold previewSizePart
  split_ifs with hok
  · have hsize : (s.apply (.param .previewSize (some (e.lib.ofSize (previewSize e r))))).params
        .previewSize = some (e.lib.ofSize (previewSize e r)) := params_param_self
    refine ⟨fun w hw => ?_, hok, Or.inl hsize, rfl⟩
    simp only [List.mem_cons, List.not_mem_nil, or_false] at hw
    rcases hw with rfl | rfl
    · rfl
    · rfl
  · exact ⟨by decide, hok⟩

lemma good_captureSize : Good e r s .captureSize (captureSizePart e r) := by
  unfold captureSizePart
  cases hsize : captureSize e r with
  | none => exact ⟨by decide, fun hp => hp hsize⟩
  | some p =>
    refine ⟨fun w hw => ?_, by simp [Passes, hsize], trivial⟩
    rcases List.mem_append.mp hw with hw | hw
    · rcases List.mem_append.mp hw with hw | hw
      · exact stage_of_mem_setInt rfl hw
      · exact stage_of_mem_setInt rfl hw
    · exact stage_of_mem_setInt rfl hw

lemma stage_of_mem_setVideoCaptureSize {p : ℤ × ℤ} {w : Write}
    (hw : w ∈ setVideoCaptureSize e p) : w.stage = some .videoSize := by
  unfold setVideoCaptureSize at hw
  split at hw
  · obtain rfl := List.mem_singleton.mp hw
    rfl
  · split_ifs at hw
    · simp only [setInt, List.mem_cons, List.mem_append, List.not_mem_nil, or_false] at hw
      rcases hw with rfl | rfl | rfl <;> rfl
    · simp only [setInt, List.mem_cons, List.mem_append, List.not_mem_nil, or_false] at hw
      rcases hw with rfl | rfl | rfl <;> rfl

/-- `setVideoCaptureSize` does not record the video size. -/
lemma params_setVideoCaptureSize {p : ℤ × ℤ} :
    (s.applyAll (setVideoCaptureSize e p)).params .videoSize = s.params .videoSize := by
  unfold setVideoCaptureSize
  split
  · rfl
  · split_ifs
    · simp [State.apply]
    · simp [State.apply]

lemma good_videoSize : Good e r s .videoSize (videoSizePart e r s) := by
  unfold videoSizePart
  simp only
  by_cases hok : Positive (videoSize e r)
  · rw [if_pos hok]
    by_cases hnew : s.first = true ∨
        e.lib.getSize (0, 0) (s.params .videoSize) ≠ videoSize e r
    · rw [if_pos hnew]
      refine ⟨fun w hw => ?_, hok, Or.inl ?_⟩
      · rcases List.mem_cons.mp hw with rfl | hw
        · rfl
        · split_ifs at hw
          · exact stage_of_mem_setVideoCaptureSize hw
          · exact absurd hw List.not_mem_nil
      · rw [applyAll_cons]
        split_ifs
        · rw [params_setVideoCaptureSize]
          exact params_param_self
        · exact params_param_self
    · rw [if_neg hnew]
      exact good_done_nil hok (Or.inr (not_not.mp fun hne => hnew (Or.inr hne)))
  · rw [if_neg hok]
    exact ⟨by decide, hok⟩

lemma good_recordingHint : Good e r s .recordingHint (recordingHintPart e r) := by
  unfold recordingHintPart
  cases r .recordingHint with
  | none => exact good_done_nil trivial trivial
  | some v => exact ⟨fun w hw => stage_of_mem_set rfl hw, trivial, trivial⟩

/-- A number that has changed is recorded, and otherwise is there. -/
lemma recordsInt_changedInt {k : Key} {n : ℤ}
    (hws : ∀ s : State, (s.applyAll ws).params k = s.params k) :
    RecordsInt e (s.applyAll (changedInt e s k n ws)) k n := by
  unfold changedInt
  split_ifs with hnew
  · refine Or.inl ?_
    rw [applyAll_append, hws, applyAll_setInt, params_param_self]
  · exact Or.inr (not_not.mp fun hne => hnew (Or.inr hne))

lemma stage_of_mem_changedInt {k : Key} {n : ℤ} {w : Write} (hk : k.stage = some st)
    (hws : ∀ w ∈ ws, w.stage = some st) (hw : w ∈ changedInt e s k n ws) : w.stage = some st := by
  unfold changedInt at hw
  split_ifs at hw
  · rcases List.mem_append.mp hw with hw | hw
    · exact stage_of_mem_setInt hk hw
    · exact hws w hw
  · exact absurd hw List.not_mem_nil

lemma good_frameRate : Good e r s .frameRate (frameRatePart e r s) := by
  unfold frameRatePart
  split_ifs with hvalid husb
  · exact ⟨fun w hw => stage_of_mem_changedInt rfl (by simp) hw, Or.inl hvalid,
      fun _ => recordsInt_changedInt fun _ => rfl⟩
  · exact good_done_nil (Or.inr husb) fun h => absurd h hvalid
  · exact ⟨by decide, fun h => h.elim hvalid husb⟩

lemma good_jpegQuality : Good e r s .jpegQuality (jpegQualityPart e r) := by
  unfold jpegQualityPart
  split_ifs with hvalid husb
  · exact ⟨fun w hw => stage_of_mem_setInt rfl hw, Or.inl hvalid,
      fun _ _ => Or.inl params_param_self⟩
  · exact ⟨fun w hw => stage_of_mem_setInt rfl hw, Or.inr husb,
      fun h1 h2 => absurd ⟨h1, h2⟩ hvalid⟩
  · exact ⟨by decide, fun h => h.elim hvalid husb⟩

lemma good_rotation : Good e r s .rotation (rotationPart e r) := by
  unfold rotationPart
  split_ifs with hok
  · refine ⟨fun w hw => ?_, hok, Or.inl ?_, rfl⟩
    · rcases List.mem_cons.mp hw with rfl | hw
      · rfl
      · exact stage_of_mem_setInt rfl hw
    · rw [applyAll_cons, applyAll_setInt, params_param_self]
  · exact ⟨by decide, hok⟩

/-- The settings by name. -/
lemma good_changedPart {supported : Bool} {cmd : Cmd} {code : String → ℤ} {k : Key}
    {also : String → List Write} (hp : Passes e r s st) (hk : k.stage = some st)
    (hcmd : cmdStage cmd = st) (halso : ∀ v, ∀ w ∈ also v, w.stage = some st)
    (hstore : ∀ v, 0 ≤ code v → e.lib.storable v = true)
    (hc : ∀ s' : State, (supported = true → RecordsName r s' code k) → Committed e r s' st) :
    Good e r s st (changedPart e r s supported cmd code k also) := by
  unfold changedPart
  by_cases hsup : supported = true
  swap
  · rw [if_neg hsup]
    exact good_done_nil hp (hc s fun h => absurd h hsup)
  rw [if_pos hsup]
  cases hnew : r k with
  | none =>
    refine good_done_nil hp (hc s fun _ v hv => ?_)
    rw [hnew] at hv
    cases hv
  | some new =>
    have hsent : Good e r s st (done (also new ++
        if 0 ≤ code new then set e k new ++ [.send cmd (code new)] else [])) := by
      refine ⟨fun w hw => ?_, hp, hc _ fun _ v hv hcode => ?_⟩
      · rcases List.mem_append.mp hw with hw | hw
        · exact halso new w hw
        · split_ifs at hw
          · rcases List.mem_append.mp hw with hw | hw
            · exact stage_of_mem_set hk hw
            · obtain rfl := List.mem_singleton.mp hw
              exact congrArg some hcmd
          · exact absurd hw List.not_mem_nil
      · obtain rfl := Option.some.inj (hnew.symm.trans hv)
        rw [if_pos hcode, applyAll_append, applyAll_append, applyAll_set (hstore new hcode)]
        exact params_param_self
    simp only
    cases s.first with
    | true => exact hsent
    | false =>
      rw [if_neg (by decide)]
      cases hnow : s.params k with
      | none => trivial
      | some now =>
        simp only
        by_cases hne : now ≠ new
        · rw [if_pos hne]
          exact hsent
        · rw [if_neg hne]
          refine good_done_nil hp (hc s fun _ v hv _ => ?_)
          obtain rfl := Option.some.inj (hnew.symm.trans hv)
          rw [hnow, not_not.mp hne]

/-- A name with a code is one of the names that the code knows. -/
lemma storable_imageEffect {v : String} (hv : 0 ≤ e.codes.imageEffect v) :
    e.lib.storable v = true := by
  have hmem : v ∈ ["none", "mono", "sepia", "aqua", "negative"] := by
    unfold Codes.imageEffect at hv
    split_ifs at hv <;> simp_all
  exact storable_of_mem (by decide) hmem

lemma storable_white {v : String} (hv : 0 ≤ e.codes.white v) : e.lib.storable v = true := by
  have hmem : v ∈ ["auto", "daylight", "cloudy-daylight", "fluorescent", "incandescent",
      "warm-fluorescent"] := by
    unfold Codes.white at hv
    split_ifs at hv <;> simp_all
  exact storable_of_mem (by decide) hmem

lemma storable_flash {v : String} (hv : 0 ≤ e.codes.flash v) : e.lib.storable v = true := by
  have hmem : v ∈ ["off", "auto", "on", "torch", "red-eye"] := by
    unfold Codes.flash at hv
    split_ifs at hv <;> simp_all
  exact storable_of_mem (by decide) hmem

lemma good_effect : Good e r s .effect (effectPart e r s) :=
  good_changedPart trivial rfl rfl (fun _ _ hw => absurd hw List.not_mem_nil)
    (fun _ => storable_imageEffect) fun _ h => h

lemma good_whiteBalance : Good e r s .whiteBalance (whiteBalancePart e r s) := by
  refine good_changedPart trivial rfl rfl (fun v w hw => ?_) (fun _ => storable_white) fun _ h => h
  obtain rfl := List.mem_singleton.mp hw
  rfl

lemma good_exposure : Good e r s .exposure (exposurePart e r s) := by
  unfold exposurePart
  split_ifs with hsup hrange
  · refine ⟨fun w hw => stage_of_mem_changedInt rfl (fun w hw => ?_) hw, fun _ => hrange,
      fun _ => recordsInt_changedInt fun _ => rfl⟩
    obtain rfl := List.mem_singleton.mp hw
    rfl
  · exact ⟨by decide, fun h => hrange (h hsup)⟩
  · exact good_done_nil (fun h => absurd h hsup) fun h => absurd h hsup

lemma good_flash : Good e r s .flash (flashPart e r) := by
  unfold flashPart
  by_cases hsup : e.config.flashMode = true
  swap
  · rw [if_neg hsup]
    exact good_done_nil trivial fun h => absurd h hsup
  rw [if_pos hsup]
  cases hnew : r .flashMode with
  | none => trivial
  | some new =>
    refine ⟨fun w hw => ?_, trivial, fun _ v hv hcode => ?_⟩
    · rcases List.mem_append.mp hw with hw | hw
      · exact stage_of_mem_set rfl hw
      · split_ifs at hw
        · rcases List.mem_append.mp hw with hw | hw
          · exact stage_of_mem_set rfl hw
          · obtain rfl := List.mem_singleton.mp hw
            rfl
        · exact absurd hw List.not_mem_nil
    · obtain rfl := Option.some.inj (hnew.symm.trans hv)
      rw [if_pos hcode, applyAll_append, applyAll_append, applyAll_set (storable_flash hcode),
        applyAll_set (storable_flash hcode), applyAll_cons, applyAll_nil, params_send,
        params_param_self]

lemma good_zoom : Good e r s .zoom (zoomPart e r s) := by
  unfold zoomPart
  split_ifs with hok hmax
  · trivial
  · refine ⟨fun w hw => ?_, hok, Or.inl (by simp), rfl⟩
    rcases List.mem_append.mp hw with hw | hw
    · exact stage_of_mem_setInt rfl hw
    · obtain rfl := List.mem_singleton.mp hw
      rfl
  · exact ⟨by decide, hok⟩

/-- The writes for a focus mode belong to its stage, and record it. -/
lemma focusModeWrites_spec {mode : String} (h : focusModeWrites e s mode = some ws) :
    (∀ w ∈ ws, w.stage = some .focus) ∧
      (e.lib.storable mode = true → (s.applyAll ws).params .focusMode = some mode) ∧
      (s.applyAll ws).params .focusAreas = s.params .focusAreas := by
  have hareas : (s.applyAll (set e .focusMode mode ++ [.queueSetElem .setFocusMode])).params
      .focusAreas = s.params .focusAreas := by
    rw [applyAll_append, applyAll_cons, applyAll_nil, params_queueSetElem,
      params_applyAll_set (by decide)]
  have hown : ∀ w ∈ set e .focusMode mode ++ [.queueSetElem .setFocusMode],
      w.stage = some .focus := by
    intro w hw
    rcases List.mem_append.mp hw with hw | hw
    · exact stage_of_mem_set rfl hw
    · obtain rfl := List.mem_singleton.mp hw
      rfl
  have hrec : e.lib.storable mode = true → (s.applyAll (set e .focusMode mode ++
      [.queueSetElem .setFocusMode])).params .focusMode = some mode := by
    intro hv
    rw [applyAll_append, applyAll_set hv, applyAll_cons, applyAll_nil, params_queueSetElem,
      params_param_self]
  unfold focusModeWrites at h
  cases hfirst : s.first with
  | true =>
    rw [hfirst, if_pos rfl] at h
    obtain rfl := Option.some.inj h
    exact ⟨hown, hrec, hareas⟩
  | false =>
    rw [hfirst, if_neg (by decide)] at h
    cases hnow : s.params .focusMode with
    | none =>
      rw [hnow] at h
      cases h
    | some now =>
      rw [hnow] at h
      obtain rfl := Option.some.inj h
      by_cases hne : now ≠ mode
      · rw [if_pos hne]
        exact ⟨hown, hrec, hareas⟩
      · rw [if_neg hne]
        refine ⟨fun w hw => absurd hw List.not_mem_nil, fun _ => ?_, rfl⟩
        rw [applyAll_nil, hnow, not_not.mp hne]

/-- The areas are stored behind the mode. -/
lemma focusWrites_spec {mode areas : String} (h : focusWrites e s mode areas = some ws) :
    (∀ w ∈ ws, w.stage = some .focus) ∧
      (e.lib.storable mode = true → (s.applyAll ws).params .focusMode = some mode) ∧
      (e.lib.storable areas = true → (s.applyAll ws).params .focusAreas = some areas) := by
  unfold focusWrites at h
  obtain ⟨ws', hmode, h⟩ := Option.bind_eq_some_iff.mp h
  obtain ⟨now, hnow, h⟩ := Option.bind_eq_some_iff.mp h
  obtain ⟨hown, hrec, hareas⟩ := focusModeWrites_spec hmode
  split_ifs at h with hne
  · obtain ⟨-, -, h⟩ := Option.bind_eq_some_iff.mp h
    obtain rfl := Option.some.inj h
    refine ⟨fun w hw => ?_, fun hv => ?_, fun hv => ?_⟩
    · rcases List.mem_append.mp hw with hw | hw
      · exact hown w hw
      · exact stage_of_mem_set rfl hw
    · rw [applyAll_append, params_applyAll_set (by decide)]
      exact hrec hv
    · rw [applyAll_append, applyAll_set hv, params_param_self]
  · obtain rfl := Option.some.inj h
    exact ⟨hown, hrec, fun _ => by rw [hareas, hnow, not_not.mp hne]⟩

lemma good_focus : Good e r s .focus (focusPart e r s) := by
  unfold focusPart
  by_cases hsup : e.config.focusMode = true
  · rw [if_pos hsup]
    have hpasses : Passes e r s .focus ↔ checkFocusArea e (r .focusAreas) = some true ∧
        checkFocusMode (s.params .supportedFocusModes) (r .focusMode) = some true := by
      rw [Passes, if_pos hsup]
    cases harea : checkFocusArea e (r .focusAreas) with
    | none => trivial
    | some ok =>
      cases ok with
      | false => exact ⟨by decide, fun h => by simp [hpasses, harea] at h⟩
      | true =>
        cases hmode : checkFocusMode (s.params .supportedFocusModes) (r .focusMode) with
        | none => trivial
        | some ok =>
          cases ok with
          | false => exact ⟨by decide, fun h => by simp [hpasses, hmode] at h⟩
          | true =>
            simp only
            cases hwrites : (r .focusMode).bind fun mode => (r .focusAreas).bind fun areas =>
                focusWrites e s mode areas with
            | none => trivial
            | some ws =>
              obtain ⟨mode, hnew, h⟩ := Option.bind_eq_some_iff.mp hwrites
              obtain ⟨areas, hnew', h⟩ := Option.bind_eq_some_iff.mp h
              obtain ⟨hown, hrec, hrec'⟩ := focusWrites_spec h
              refine ⟨hown, hpasses.mpr ⟨harea, hmode⟩, fun v hv hstore => ?_,
                fun _ v hv hstore => ?_⟩
              · obtain rfl := Option.some.inj (hnew.symm.trans hv)
                exact hrec hstore
              · obtain rfl := Option.some.inj (hnew'.symm.trans hv)
                exact hrec' hstore
  · rw [if_neg hsup]
    have hpasses : Passes e r s .focus ↔ r .focusMode = some "fixed" := by
      rw [Passes, if_neg hsup]
    cases hnew : r .focusMode with
    | none => trivial
    | some mode =>
      simp only
      split_ifs with hfixed
      · subst hfixed
        refine ⟨fun w hw => stage_of_mem_set rfl hw, hpasses.mpr hnew, fun v hv hstore => ?_,
          fun h => absurd h hsup⟩
        obtain rfl := Option.some.inj (hnew.symm.trans hv)
        rw [applyAll_set hstore]
        exact params_param_self
      · refine ⟨by decide, fun h => hfixed ?_⟩
        exact Option.some.inj (hnew.symm.trans (hpasses.mp h))

lemma good_gps : Good e r s .gps (gpsPart e r) := by
  unfold gpsPart
  split_ifs
  · refine ⟨fun w hw => ?_, trivial, trivial⟩
    obtain ⟨g, -, hw⟩ := List.mem_flatMap.mp hw
    have hkey : g.key.stage = some .gps := by cases g <;> rfl
    unfold gpsWrites at hw
    split at hw
    · rcases List.mem_cons.mp hw with rfl | hw
      · rfl
      · exact stage_of_mem_set hkey hw
    · simp only [List.mem_cons, List.not_mem_nil, or_false] at hw
      rcases hw with rfl | rfl
      · rfl
      · exact hkey
  · trivial

lemma good_thumbnail : Good e r s .thumbnail (thumbnailPart e r) := by
  unfold thumbnailPart
  simp only
  split_ifs
  · refine ⟨fun w hw => ?_, trivial, trivial⟩
    rcases List.mem_cons.mp hw with rfl | hw
    · rfl
    · rcases List.mem_append.mp hw with hw | hw
      · exact stage_of_mem_setInt rfl hw
      · exact stage_of_mem_setInt rfl hw
  · exact good_done_nil trivial trivial

/-- Every stage, from any state. -/
lemma good_part : Good e r s st (part e r s st) := by
  cases st with
  | device =>
    unfold part
    split_ifs with hdev
    · exact good_done_nil hdev trivial
    · exact ⟨by decide, hdev⟩
  | stopContinuous => exact good_stopContinuous
  | pictureMode => exact good_pictureMode
  | singlePicture => exact good_singlePicture
  | captureIntent => exact good_captureIntent
  | previewFormat => exact good_previewFormat
  | pictureFormat => exact good_pictureFormat
  | pictureSize => exact good_pictureSize
  | previewSize => exact good_previewSize
  | captureSize => exact good_captureSize
  | videoSize => exact good_videoSize
  | recordingHint => exact good_recordingHint
  | frameRate => exact good_frameRate
  | jpegQuality => exact good_jpegQuality
  | rotation => exact good_rotation
  | effect => exact good_effect
  | whiteBalance => exact good_whiteBalance
  | exposure => exact good_exposure
  | flash => exact good_flash
  | zoom => exact good_zoom
  | focus => exact good_focus
  | gps => exact good_gps
  | thumbnail => exact good_thumbnail
  | finish =>
    refine ⟨fun w hw => ?_, trivial, trivial⟩
    obtain rfl := List.mem_singleton.mp hw
    rfl

/-! ## A call -/

/-- The code has a value for the effect, the white balance and the flash mode, as far as they are
supported. -/
structure Known (e : Env) (r : Parameters) : Prop where
  effect : e.config.colorEffect = true → ∀ v, r .effect = some v → 0 ≤ e.codes.imageEffect v
  whiteBalance : e.config.whiteBalance = true →
    ∀ v, r .whiteBalance = some v → 0 ≤ e.codes.white v
  flash : e.config.flashMode = true → ∀ v, r .flashMode = some v → 0 ≤ e.codes.flash v

/-- What a call has done with the stages `sts`: it returns 0 only if all their checks pass, and then
does so if the names are known; a stage with no failed check up to it is committed, and one behind
or at a failed check is untouched. -/
structure Outcome (e : Env) (r : Parameters) (sts : List Stage) (s : State) (ret : ℤ) (s' : State) :
    Prop where
  passes : ret = 0 → ∀ st ∈ sts, Passes e r s st
  -- the error for an unknown name is set and never returned; nothing is said of it
  returns : Known e r → (∀ st ∈ sts, Passes e r s st) → ret = 0
  commits : ∀ front st back, sts = front ++ st :: back →
    (∀ x ∈ front ++ [st], Passes e r s x) → Committed e r s' st
  untouched : ∀ front st back, sts = front ++ st :: back →
    (∃ x ∈ front ++ [st], ¬ Passes e r s x) → Untouched st s s'

/-- The first check fails, and nothing has been written. -/
lemma Outcome.of_error {st₀ : Stage} {sts : List Stage} {err : ℤ} (herr : err ≠ 0)
    (hfails : ¬ Passes e r s st₀) : Outcome e r (st₀ :: sts) s err s where
  passes := fun h => absurd h herr
  returns := fun _ h => absurd (h st₀ List.mem_cons_self) hfails
  commits := by
    intro front st back hsplit hall
    refine absurd (hall st₀ ?_) hfails
    cases front with
    | nil =>
      obtain ⟨rfl, -⟩ := List.cons.inj hsplit
      exact List.mem_cons_self
    | cons x front =>
      obtain ⟨rfl, -⟩ := List.cons.inj hsplit
      exact List.mem_cons_self
  untouched := fun _ st _ _ _ => .refl st s

/-- The first stage has committed its key in `s₁`, and the others go on from there. -/
lemma Outcome.cons {s s₁ s' : State} {st₀ : Stage} {sts : List Stage} {ret : ℤ} (hmem : st₀ ∉ sts)
    (hpasses : Passes e r s st₀) (hro : ReadOnly s s₁)
    (hother : ∀ st ≠ st₀, Untouched st s s₁) (hcommits : Committed e r s' st₀)
    (hrest : Outcome e r sts s₁ ret s') : Outcome e r (st₀ :: sts) s ret s' where
  passes := by
    intro hret
    rw [List.forall_mem_cons]
    exact ⟨hpasses, fun st hst => (passes_congr hro).mp (hrest.passes hret st hst)⟩
  returns := by
    intro hknown hall
    rw [List.forall_mem_cons] at hall
    exact hrest.returns hknown fun st hst => (passes_congr hro).mpr (hall.2 st hst)
  commits := by
    intro front st back hsplit hall
    cases front with
    | nil =>
      obtain ⟨rfl, -⟩ := List.cons.inj hsplit
      exact hcommits
    | cons x front =>
      obtain ⟨rfl, hsplit'⟩ := List.cons.inj hsplit
      refine hrest.commits front st back hsplit' fun y hy => ?_
      exact (passes_congr hro).mpr (hall y (List.mem_cons_of_mem _ hy))
  untouched := by
    rintro front st back hsplit ⟨y, hy, hfails⟩
    cases front with
    | nil =>
      obtain ⟨rfl, -⟩ := List.cons.inj hsplit
      obtain rfl := List.mem_singleton.mp hy
      exact absurd hpasses hfails
    | cons x front =>
      obtain ⟨rfl, hsplit'⟩ := List.cons.inj hsplit
      rcases List.mem_cons.mp hy with rfl | hy
      · exact absurd hpasses hfails
      · have hne : st ≠ st₀ := by
          rintro rfl
          exact hmem (hsplit' ▸ by simp)
        refine (hother st hne).trans (hrest.untouched front st back hsplit' ⟨y, hy, ?_⟩)
        exact fun h => hfails ((passes_congr hro).mp h)

/-- The stages, by induction: a stage in front leaves alone what the later ones write, and these
leave alone what it has committed. -/
lemma runStages_outcome (sts : List Stage) : ∀ {s s' : State} {ret : ℤ}, sts.Nodup →
    runStages e r sts s = some (ret, s') →
    ReadOnly s s' ∧ (∀ st ∉ sts, Untouched st s s') ∧ Outcome e r sts s ret s' := by
  induction sts with
  | nil =>
    intro s s' ret _ hrun
    obtain ⟨rfl, rfl⟩ := Prod.mk.inj (Option.some.inj hrun)
    refine ⟨fun _ _ => rfl, fun st _ => .refl st s, by simp, fun _ _ => rfl,
      fun front st back h => ?_, fun front st back h => ?_⟩
    · simp at h
    · simp at h
  | cons st₀ sts ih =>
    intro s s' ret hnd hrun
    obtain ⟨hmem, hnd⟩ := List.nodup_cons.mp hnd
    have hgood : Good e r s st₀ (part e r s st₀) := good_part
    unfold runStages at hrun
    cases hpart : part e r s st₀ with
    | none =>
      rw [hpart] at hrun
      cases hrun
    | some res =>
      rw [hpart] at hrun hgood
      cases res with
      | error err =>
        obtain ⟨rfl, rfl⟩ := Prod.mk.inj (Option.some.inj hrun)
        exact ⟨fun _ _ => rfl, fun st _ => .refl st s, .of_error hgood.1 hgood.2⟩
      | ok ws =>
        obtain ⟨hown, hpasses, hcommits⟩ := hgood
        have hro : ReadOnly s (s.applyAll ws) := readOnly_applyAll fun w hw => by simp [hown w hw]
        have hother : ∀ st ≠ st₀, Untouched st s (s.applyAll ws) := by
          intro st hne
          refine untouched_applyAll fun w hw heq => hne ?_
          exact Option.some.inj (heq.symm.trans (hown w hw))
        obtain ⟨hro', hout, hrest⟩ := ih hnd hrun
        refine ⟨fun k hk => (hro' k hk).trans (hro k hk), fun st hst => ?_, ?_⟩
        · obtain ⟨hne, hst⟩ := not_or.mp (mt List.mem_cons.mpr hst)
          exact (hother st hne).trans (hout st hst)
        · exact .cons hmem hpasses hro hother (hcommits.keep (hout st₀ hmem) hro') hrest

end Stages

/-- **What a call commits.**  The checks are made in the order of `Stage.all`, and a call with known
names returns `NO_ERROR` exactly if they all pass.  The stages in front of the first check that
fails have committed their keys; that one and those behind it have left theirs as they were. -/
theorem setParameters_commits (e : Env) (r : Parameters) (s s' : State) (ret : ℤ)
    (hrun : setParameters e r s = some (ret, s')) : Outcome e r Stage.all s ret s' :=
  (runStages_outcome Stage.all (by decide) hrun).2.2

/-! ### Two calls -/

/-- The library on the few texts of the calls below. -/
def sampleLib : Lib where
  storable := plain
  getInt
    | some "0" => 0
    | some "30" => 30
    | some "90" => 90
    | some "100" => 100
    | _ => -1
  ofInt := Int.repr
  getSize d o := if o = some "640x480" then (640, 480) else d
  ofSize p := p.1.repr ++ "x" ++ p.2.repr
  getRange o := if o = some "5000,60000" then (5000, 60000) else (-1, -1)
  atoi _ := 0
  storable_plain _ h := h

/-- A camera with a fixed focus and nothing else. -/
def fixedFocus : Env where
  lib := sampleLib
  codes := ⟨0, 1, 2, 7, 3, 1, 6, 9, 4, 2, 3, 0, 1, 2, 3, 4⟩
  config := ⟨false, false, false, false, false⟩
  device := true
  tryFmtSize _ p := some p
  format := 0
  pixFmtYuyv := 1
  thumbForVideo _ _ := false
  ctsVerifier := false
  stack _ := 0

/-- Before the first call. -/
def fresh : State where
  params k := if k = .maxZoom then some "100" else none
  notifier := ⟨"", "", true, (640, 480), 0, fun _ => none, (0, 0)⟩
  zoomRatio := 100
  oriention := 0
  imageCaptureIntent := false
  videoCapture := (640, 480)
  first := true
  data _ := 0
  queue := []

/-- The parameters of a call, with a picture mode and a picture format. -/
def request (mode format : String) : Parameters
  | .pictureMode => some mode
  | .previewFormat => some "yuv420sp"
  | .pictureFormat => some format
  | .pictureSize | .previewSize | .videoSize => some "640x480"
  | .previewFpsRange => some "5000,60000"
  | .previewFrameRate => some "30"
  | .jpegQuality => some "90"
  | .rotation | .zoom => some "0"
  | .focusMode => some "fixed"
  | _ => none

/-- An error at the picture format, behind the preview format. -/
lemma setParameters_png : ∃ s', setParameters fixedFocus (request "normal" "png") fresh =
    some (einval, s') ∧ s'.params .previewFormat = some "yuv420sp" := by
  have hrun : (setParameters fixedFocus (request "normal" "png") fresh).map
      (fun x => (x.1, x.2.params .previewFormat)) = some (einval, some "yuv420sp") := by
    decide +kernel
  obtain ⟨x, hx, heq⟩ := Option.map_eq_some_iff.mp hrun
  obtain ⟨hret, hformat⟩ := Prod.mk.inj heq
  exact ⟨x.2, by rw [hx, ← hret], hformat⟩

/-- The preview format is recorded, and the picture size behind the error is not. -/
theorem setParameters_commits_png : ∃ s', setParameters fixedFocus (request "normal" "png") fresh =
    some (einval, s') ∧ s'.params .previewFormat = some "yuv420sp" ∧
      Untouched .pictureSize fresh s' := by
  obtain ⟨s', hrun, hformat⟩ := setParameters_png
  refine ⟨s', hrun, hformat, ?_⟩
  refine (setParameters_commits _ _ _ _ _ hrun).untouched (Stage.all.take 7) .pictureSize
    (Stage.all.drop 8) rfl ⟨.pictureFormat, by decide, ?_⟩
  rw [Passes]
  decide

/-! ### Not all or nothing -/

/-- What a call that returns an error would have to leave as it was. -/
structure Unchanged (s s' : State) : Prop where
  params : s'.params = s.params
  notifier : s'.notifier = s.notifier
  zoomRatio : s'.zoomRatio = s.zoomRatio
  oriention : s'.oriention = s.oriention
  queue : s'.queue = s.queue
  data : s'.data = s.data

/-- What a call that returns `NO_ERROR` would have to have recorded: for each of its keys that is
there, a value that the code knows. -/
structure AllRecorded (e : Env) (r : Parameters) (s' : State) : Prop where
  pictureMode : ∀ v, r .pictureMode = some v →
    v ∈ pictureModes ∧ s'.params .pictureMode = some v
  previewFormat : ∀ v, r .previewFormat = some v →
    (v = "yuv420sp" ∨ v = "yuv420p") ∧ s'.params .previewFormat = some v
  pictureSize : r .pictureSize ≠ none →
    Positive (pictureSize e r) ∧ RecordsSize e s' .pictureSize (pictureSize e r)
  previewSize : r .previewSize ≠ none →
    Positive (previewSize e r) ∧ RecordsSize e s' .previewSize (previewSize e r)
  videoSize : r .videoSize ≠ none →
    Positive (videoSize e r) ∧ RecordsSize e s' .videoSize (videoSize e r)
  frameRate : r .previewFrameRate ≠ none →
    FrameRateValid e r ∧ RecordsInt e s' .previewFrameRate (frameRate e r)
  jpegQuality : r .jpegQuality ≠ none → (1 ≤ jpegQuality e r ∧ jpegQuality e r ≤ 100) ∧
    RecordsInt e s' .jpegQuality (jpegQuality e r)
  rotation : r .rotation ≠ none →
    0 ≤ rotation e r ∧ RecordsInt e s' .rotation (rotation e r)
  effect : ∀ v, r .effect = some v →
    0 ≤ e.codes.imageEffect v ∧ s'.params .effect = some v
  whiteBalance : ∀ v, r .whiteBalance = some v →
    0 ≤ e.codes.white v ∧ s'.params .whiteBalance = some v
  exposure : r .exposureCompensation ≠ none →
    e.lib.getInt (r .minExposureCompensation) ≤ exposure e r ∧
      exposure e r ≤ e.lib.getInt (r .maxExposureCompensation) ∧
      RecordsInt e s' .exposureCompensation (exposure e r)
  flash : ∀ v, r .flashMode = some v → 0 ≤ e.codes.flash v ∧ s'.params .flashMode = some v
  zoom : r .zoom ≠ none →
    (0 ≤ zoom e r ∧ zoom e r ≤ maxZoom e s') ∧ RecordsInt e s' .zoom (zoom e r)
  focus : ∀ v, r .focusMode = some v → s'.params .focusMode = some v

/-- The error behind the preview format, and a call with a picture mode that nobody knows. -/
theorem setParameters_not_all_or_nothing :
    (¬ ∀ (e : Env) (r : Parameters) (s s' : State) (ret : ℤ),
      setParameters e r s = some (ret, s') → ret ≠ 0 → Unchanged s s') ∧
    ¬ ∀ (e : Env) (r : Parameters) (s s' : State) (ret : ℤ),
      setParameters e r s = some (ret, s') → ret = 0 → AllRecorded e r s' := by
  constructor
  · intro hall
    obtain ⟨s', hrun, hformat⟩ := setParameters_png
    have hsame := (hall _ _ _ _ _ hrun (by decide)).params
    rw [hsame] at hformat
    exact absurd hformat (by decide)
  · intro hall
    have hret : (setParameters fixedFocus (request "panorama" "jpeg") fresh).map Prod.fst =
        some 0 := by decide +kernel
    obtain ⟨x, hx, hzero⟩ := Option.map_eq_some_iff.mp hret
    have hmode := (hall fixedFocus _ fresh x.2 x.1 hx hzero).pictureMode "panorama" rfl
    exact absurd hmode.1 (by decide)

end Softwinner.Camera.SetParameters

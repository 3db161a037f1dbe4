import Mathlib.Data.Finset.Card
import Mathlib.Data.Fintype.Card
import Mathlib.Logic.Relation
import Softwinner.Camera.OsalQueue
import Softwinner.Framework.Runs

/-!
# The capture device and its threads

`V4L2CameraDevice2.cpp`, from `startDevice` to `releasePreviewFrame`.  `captureThread` takes
frames from the driver and queues them; `previewThread` shows them and hands them to the
encoder; three threads take pictures from one queue.  A frame stays in the driver's buffer, and
`mV4l2buf[i].refCnt` says how many of them still need it.

`step` is one step of one thread: a section under `mCaptureMutex`, a queue operation, or a
single access to a shared variable.  `mObjectLock`, which `previewThread` and
`continuousPictureThread` hold from their test to their end and which `startDevice` and
`stopDevice` take, is not a field of its own; the guards of the steps read off the program
counters whether it is free.  What the driver, the clock, the encoder and the face detection
decide is part of an action.

A queue entry is a pointer, into `mV4l2buf` or to the copy `mPicBuffer`.  Its other fields are
for the statements only, like `V4L2Buf.session`, and `session`, `frames`, `dqbufs`, `qbufs`,
`queued` and `taken` of the state: no step depends on them.
-/

namespace Softwinner.Camera

/-! ## State -/

def nbBuffer : ℕ := 10

-- one less than the arguments of `OSAL_QueueCreate`
def previewQueueSize : ℕ := nbBuffer - 1
def pictureQueueSize : ℕ := 3

/-- `TAKE_PICTURE_STATE`. -/
inductive TakePictureState
  | null | normal | fast | record | continuous | continuousFast | smart
  deriving DecidableEq, Repr

/-- The fields of `V4L2BUF_t` that the threads look at. -/
structure V4L2Buf where
  index : Fin nbBuffer
  addrPhyY : ℕ
  refCnt : ℕ
  /-- The session in which the entry was filled, 0 for a cleared one. -/
  session : ℕ
  deriving DecidableEq, Repr

/-- An entry after `memset`. -/
def V4L2Buf.cleared : V4L2Buf := ⟨⟨0, by decide⟩, 0, 0, 0⟩

/-- What a queue entry points to. -/
inductive Ptr
  | buf (i : Fin nbBuffer)
  | pic
  deriving DecidableEq, Repr

/-- What a frame was queued for: the preview, a single picture, a smart one, or a burst. -/
inductive Kind
  | preview | single | smart | burst
  deriving DecidableEq, Repr

/-- A queue entry, with the session and the number of its frame. -/
structure Entry where
  ptr : Ptr
  kind : Kind
  session : ℕ
  frame : ℕ
  deriving DecidableEq, Repr

inductive CapturePc
  | idle
  /-- At `DEC_REF`. -/
  | release (i : Fin nbBuffer)
  /-- The thread has returned `false`. -/
  | exited
  deriving DecidableEq, Repr

inductive PreviewPc
  | idle
  | got (e : Entry)
  /-- Holds `mObjectLock`, and has found the buffer valid. -/
  | checked (e : Entry)
  /-- Behind the callbacks. -/
  | called (e : Entry)
  deriving DecidableEq, Repr

inductive PicturePc
  | idle
  | got (e : Entry)
  /-- Behind `takePicture`. -/
  | taken (e : Entry)
  /-- About to call `releasePreviewFrame` with the index it has read. -/
  | release (e : Entry) (i : Fin nbBuffer)
  deriving DecidableEq, Repr

inductive SmartPc
  | idle
  | got (e : Entry)
  | blink (e : Entry)
  | smile (e : Entry)
  /-- About to read `mIsPicCopy`. -/
  | taken (e : Entry)
  | release (e : Entry) (i : Fin nbBuffer)
  deriving DecidableEq, Repr

inductive ContinuousPc
  | idle
  | got (e : Entry)
  /-- Holds `mObjectLock`, and has found the buffer valid. -/
  | checked (e : Entry)
  /-- Behind `takePicture`, or on one of the ways around it. -/
  | done (e : Entry)
  deriving DecidableEq, Repr

/-- The thread holds `mObjectLock`. -/
def PreviewPc.locked : PreviewPc → Bool
  | .checked _ | .called _ => true
  | _ => false

def ContinuousPc.locked : ContinuousPc → Bool
  | .checked _ | .done _ => true
  | _ => false

/-- The members of `V4L2CameraDevice` that its threads share, the threads, the driver and the
encoder. -/
structure State where
  takePictureState : TakePictureState
  isPicCopy : Bool
  /-- `mCaptureThreadState` is `CAPTURE_STATE_PAUSED`. -/
  paused : Bool
  /-- `mCameraDeviceState` is `STATE_STARTED`. -/
  started : Bool
  /-- Which entries of `mMapMem.mem` are not null. -/
  mapMem : Fin nbBuffer → Bool
  v4l2buf : Fin nbBuffer → V4L2Buf
  picBuffer : V4L2Buf
  curAvailBufferCnt : ℤ
  smartPictureDone : Bool
  continuousPictureStarted : Bool
  continuousPictureCnt : ℤ
  continuousPictureMax : ℤ
  queueBufferPreview : List Entry
  queueBufferPicture : List Entry
  capture : CapturePc
  preview : PreviewPc
  picture : PicturePc
  smart : SmartPc
  continuous : ContinuousPc
  /-- The buffers that the driver owns. -/
  driver : Finset (Fin nbBuffer)
  /-- The frames that the encoder has not given back. -/
  encoder : List Entry
  session : ℕ
  frames : ℕ
  /-- How often each buffer was taken from the driver, and queued back. -/
  dqbufs : Fin nbBuffer → ℕ
  qbufs : Fin nbBuffer → ℕ
  /-- The pictures that were queued, and the calls of `takePicture` with their
  `is_continuous`. -/
  queued : List Entry
  taken : List (Entry × Bool)

namespace State

variable (s : State)

/-- What a pointer points to. -/
def deref : Ptr → V4L2Buf
  | .buf i => s.v4l2buf i
  | .pic => s.picBuffer

/-- `mObjectLock` is free. -/
def ObjectLockFree : Prop := s.preview.locked = false ∧ s.continuous.locked = false

instance : Decidable s.ObjectLockFree := inferInstanceAs (Decidable (_ ∧ _))

/-- `++mV4l2buf[i].refCnt`. -/
def addRef (i : Fin nbBuffer) : State :=
  let b := s.v4l2buf i
  { s with v4l2buf := Function.update s.v4l2buf i { b with refCnt := b.refCnt + 1 } }

/-- `releasePreviewFrame`; `ok` is whether `VIDIOC_QBUF` succeeds. -/
def releasePreviewFrame (i : Fin nbBuffer) (ok : Bool) : State :=
  let b := s.v4l2buf i
  if 0 < b.refCnt then
    let s := { s with v4l2buf := Function.update s.v4l2buf i { b with refCnt := b.refCnt - 1 } }
    if b.refCnt - 1 = 0 ∧ ok = true then
      { s with
        driver := insert i s.driver, curAvailBufferCnt := s.curAvailBufferCnt + 1,
        qbufs := Function.update s.qbufs i (s.qbufs i + 1) }
    else s
  else s

/-! ## The sections of `captureThread` -/

/-- The entry for the frame that has just been captured. -/
def entry (p : Ptr) (k : Kind) : Entry := ⟨p, k, s.session, s.frames⟩

/-- `getPreviewFrame` returns buffer `i`, and its entry of `mV4l2buf` is filled. -/
def fill (i : Fin nbBuffer) (addrPhyY : ℕ) : State :=
  { s with
    driver := s.driver.erase i, curAvailBufferCnt := s.curAvailBufferCnt - 1
    v4l2buf := Function.update s.v4l2buf i ⟨i, addrPhyY, 1, s.session⟩
    frames := s.frames + 1, dqbufs := Function.update s.dqbufs i (s.dqbufs i + 1) }

/-- A picture of the frame in buffer `i` is queued where it is. -/
def queuePicture (i : Fin nbBuffer) (k : Kind) : Option State :=
  (push pictureQueueSize s.queueBufferPicture (s.entry (.buf i) k)).map fun q =>
    { s.addRef i with
      queueBufferPicture := q, isPicCopy := false, queued := s.entry (.buf i) k :: s.queued }

/-- The frame is queued for the preview. -/
def queuePreview (i : Fin nbBuffer) : Option State :=
  (push previewQueueSize s.queueBufferPreview (s.entry (.buf i) .preview)).map fun q =>
    { s.addRef i with queueBufferPreview := q }

/-- The picture of a `NORMAL` request is copied, and the capture paused. -/
def queueCopy (i : Fin nbBuffer) : State :=
  let s := { s with picBuffer := { s.v4l2buf i with addrPhyY := s.picBuffer.addrPhyY } }
  match push pictureQueueSize s.queueBufferPicture (s.entry .pic .single) with
  | none => s
  | some q =>
    { s with
      queueBufferPicture := q, isPicCopy := true, paused := true, takePictureState := .null
      queued := s.entry .pic .single :: s.queued }

end State

/-- What is decided elsewhere about a frame. -/
structure Frame where
  addrPhyY : ℕ
  /-- `fast_picture_mode`, and `buf.reserved` says that the frame is no picture. -/
  reserved : Bool
  /-- The frame does not fit into `mPicBuffer`. -/
  tooLarge : Bool
  /-- The result of `isContinuousPictureTime`. -/
  continuousPictureTime : Bool

/-- The queueing of `captureThread` between `getPreviewFrame` and `DEC_REF`. -/
def State.queueFrame (s : State) (i : Fin nbBuffer) (f : Frame) : State :=
  match s.queuePreview i with
  | none => s
  | some s =>
    match s.takePictureState with
    | .fast | .record =>
      if f.reserved then s
      else
        match s.queuePicture i .single with
        | none => s
        | some s => { s with takePictureState := .null }
    | .smart => (s.queuePicture i .smart).getD s
    | .continuous | .continuousFast =>
      if f.continuousPictureTime then (s.queuePicture i .burst).getD s else s
    | _ => s

/-- `captureThread`, from `getPreviewFrame` on; all ways but one lead to `DEC_REF`. -/
def State.captureFrame (s : State) (i : Fin nbBuffer) (f : Frame) : State :=
  let s := { s.fill i f.addrPhyY with capture := .release i }
  if s.takePictureState = .normal then
    -- a frame that is too large ends the thread, with the buffer in its hands
    if f.tooLarge then { s with capture := .exited } else s.queueCopy i
  else s.queueFrame i f

/-! ## Steps -/

/-- Actions; `ok` is whether a `VIDIOC_QBUF` succeeds. -/
inductive Act
  | setTakePictureState (t : TakePictureState)
  | startDeliveringFrames
  | stopDeliveringFrames
  | startDevice (bufferCnt : ℕ)
  | stopDevice
  | startSmartPicture
  | stopSmartPicture
  | startContinuousPicture
  | stopContinuousPicture
  | setContinuousPictureCnt (cnt : ℤ)
  | captureFrame (i : Fin nbBuffer) (f : Frame)
  | captureRelease (ok : Bool)
  | previewDequeue
  | previewCheck
  /-- `recorded`: the frame is handed to the encoder. -/
  | previewCallback (recorded : Bool)
  | previewRelease (ok : Bool)
  | pictureDequeue
  | pictureTake
  | pictureCopyTest
  | pictureRelease (ok : Bool)
  | smartDequeue
  | smartDoneTest
  /-- `hit`: the detection asks for a picture. -/
  | smartBlink (hit : Bool)
  | smartSmile (hit : Bool)
  | smartCopyTest
  | smartRelease (ok : Bool)
  | continuousDequeue
  | continuousCheck
  /-- `ret`: the result of `takePicture`. -/
  | continuousTake (ret : Bool)
  | continuousRelease (ok : Bool)
  /-- `releaseRecordingFrame`. -/
  | encoderRelease (e : Entry) (ok : Bool)

namespace State

variable (s : State)

/-- The picture of `e` is taken. -/
def take (e : Entry) (continuous : Bool) : State := { s with taken := (e, continuous) :: s.taken }

/-- The picture of a smart frame is taken, and the mode left. -/
def takeSmart (e : Entry) (hit : Bool) : State :=
  if hit then { s.take e false with smartPictureDone := true, takePictureState := .null } else s

/-- The test behind `mObjectLock`: the buffer has been released meanwhile. -/
def Released (e : Entry) : Prop :=
  s.mapMem (s.deref e.ptr).index = false ∨ (s.deref e.ptr).addrPhyY = 0

instance (e : Entry) : Decidable (s.Released e) := inferInstanceAs (Decidable (_ ∨ _))

/-- `continuousPictureThread` behind its test. -/
def takeContinuous (e : Entry) (ret : Bool) : State :=
  if s.continuousPictureMax ≤ s.continuousPictureCnt then
    { s with takePictureState := .null, continuousPictureStarted := false }
  else if s.continuousPictureStarted = false then { s with takePictureState := .null }
  else
    { s.take e true with
      continuousPictureCnt := s.continuousPictureCnt + if ret then 1 else 0 }

/-- `startDevice`, when nothing fails: the driver gives `bufferCnt` buffers and owns them. -/
def startDevice (bufferCnt : ℕ) : State :=
  { s with
    started := true, mapMem := fun i => decide (i.val < bufferCnt)
    driver := Finset.univ.filter fun i => i.val < bufferCnt
    curAvailBufferCnt := bufferCnt, session := s.session + 1
    dqbufs := fun _ => 0, qbufs := fun _ => 0 }

def stopDevice : State :=
  { s with
    started := false, mapMem := fun _ => false, driver := ∅, v4l2buf := fun _ => .cleared }

/-- One step. -/
def step : Act → Option State
  | .setTakePictureState t => some { s with takePictureState := t }
  | .startDeliveringFrames => some { s with paused := false }
  | .stopDeliveringFrames => some { s with paused := true }
  | .startDevice bufferCnt =>
    if s.started = false ∧ bufferCnt ≤ nbBuffer ∧ s.ObjectLockFree then
      some (s.startDevice bufferCnt)
    else none
  | .stopDevice =>
    -- the capture thread is paused
    if s.started = true ∧ s.paused = true ∧ (∀ i, s.capture ≠ .release i) ∧ s.ObjectLockFree then
      some s.stopDevice
    else none
  | .startSmartPicture => some { s with smartPictureDone := false }
  | .stopSmartPicture => some { s with smartPictureDone := true }
  | .startContinuousPicture =>
    some { s with continuousPictureCnt := 0, continuousPictureStarted := true }
  | .stopContinuousPicture => some { s with continuousPictureStarted := false }
  | .setContinuousPictureCnt cnt => some { s with continuousPictureMax := cnt }
  | .captureFrame i f =>
    if s.capture = .idle ∧ s.paused = false ∧ i ∈ s.driver then some (s.captureFrame i f) else none
  | .captureRelease ok =>
    match s.capture with
    | .release i => some { s.releasePreviewFrame i ok with capture := .idle }
    | _ => none
  | .previewDequeue =>
    match s.preview, s.queueBufferPreview with
    | .idle, e :: q => some { s with queueBufferPreview := q, preview := .got e }
    | _, _ => none
  | .previewCheck =>
    match s.preview with
    | .got e =>
      if s.ObjectLockFree then
        some { s with preview := if s.Released e then .idle else .checked e }
      else none
    | _ => none
  | .previewCallback recorded =>
    match s.preview with
    | .checked e =>
      if recorded then
        match e.ptr with
        | .buf i =>
          some { s.addRef i with
            encoder := { e with ptr := .buf (s.v4l2buf i).index } :: s.encoder
            preview := .called e }
        | .pic => none
      else some { s with preview := .called e }
    | _ => none
  | .previewRelease ok =>
    match s.preview with
    | .called e =>
      some { s.releasePreviewFrame (s.deref e.ptr).index ok with preview := .idle }
    | _ => none
  | .pictureDequeue =>
    match s.picture, s.queueBufferPicture with
    | .idle, e :: q => some { s with queueBufferPicture := q, picture := .got e }
    | _, _ => none
  | .pictureTake =>
    match s.picture with
    | .got e => some { s.take e false with picture := .taken e }
    | _ => none
  | .pictureCopyTest =>
    match s.picture with
    | .taken e =>
      some { s with
        picture := if s.isPicCopy then .idle else .release e (s.deref e.ptr).index }
    | _ => none
  | .pictureRelease ok =>
    match s.picture with
    | .release _ i => some { s.releasePreviewFrame i ok with picture := .idle }
    | _ => none
  | .smartDequeue =>
    match s.smart, s.queueBufferPicture with
    | .idle, e :: q => some { s with queueBufferPicture := q, smart := .got e }
    | _, _ => none
  | .smartDoneTest =>
    match s.smart with
    | .got e =>
      if s.smartPictureDone then some { s with takePictureState := .null, smart := .taken e }
      else some { s with smart := .blink e }
    | _ => none
  | .smartBlink hit =>
    match s.smart with
    | .blink e => some { s.takeSmart e hit with smart := .smile e }
    | _ => none
  | .smartSmile hit =>
    match s.smart with
    | .smile e => some { s.takeSmart e hit with smart := .taken e }
    | _ => none
  | .smartCopyTest =>
    match s.smart with
    | .taken e =>
      some { s with smart := if s.isPicCopy then .idle else .release e (s.deref e.ptr).index }
    | _ => none
  | .smartRelease ok =>
    match s.smart with
    | .release _ i => some { s.releasePreviewFrame i ok with smart := .idle }
    | _ => none
  | .continuousDequeue =>
    match s.continuous, s.queueBufferPicture with
    | .idle, e :: q => some { s with queueBufferPicture := q, continuous := .got e }
    | _, _ => none
  | .continuousCheck =>
    match s.continuous with
    | .got e =>
      if s.ObjectLockFree then
        some { s with continuous := if s.Released e then .idle else .checked e }
      else none
    | _ => none
  | .continuousTake ret =>
    match s.continuous with
    | .checked e => some { s.takeContinuous e ret with continuous := .done e }
    | _ => none
  | .continuousRelease ok =>
    match s.continuous with
    | .done e =>
      some { s.releasePreviewFrame (s.deref e.ptr).index ok with continuous := .idle }
    | _ => none
  | .encoderRelease e ok =>
    match e.ptr with
    | .buf i =>
      if e ∈ s.encoder then
        some { s.releasePreviewFrame i ok with encoder := s.encoder.erase e }
      else none
    | .pic => none

/-! ### What each step finds, and what it leaves -/

section Steps

variable {s s' : State}

-- the equations of `step` are made here, once for all the lemmas below
attribute [local simp] step

lemma of_captureRelease {ok : Bool} (hstep : s.step (.captureRelease ok) = some s') :
    ∃ i, s.capture = .release i ∧ s' = { s.releasePreviewFrame i ok with capture := .idle } := by
  simp only [step] at hstep
  split at hstep
  swap
  · cases hstep
  rename_i i hp
  exact ⟨i, hp, (Option.some.inj hstep).symm⟩

lemma of_previewDequeue (hstep : s.step .previewDequeue = some s') :
    ∃ e q, s.preview = .idle ∧ s.queueBufferPreview = e :: q ∧
      s' = { s with queueBufferPreview := q, preview := .got e } := by
  simp only [step] at hstep
  split at hstep
  swap
  · cases hstep
  rename_i e q hp hq
  exact ⟨e, q, hp, hq, (Option.some.inj hstep).symm⟩

lemma of_previewCheck (hstep : s.step .previewCheck = some s') :
    ∃ e, s.preview = .got e ∧ s.ObjectLockFree ∧
      s' = { s with preview := if s.Released e then .idle else .checked e } := by
  simp only [step] at hstep
  split at hstep
  swap
  · cases hstep
  rename_i e hp
  by_cases hlock : s.ObjectLockFree
  · rw [if_pos hlock] at hstep
    exact ⟨e, hp, hlock, (Option.some.inj hstep).symm⟩
  · rw [if_neg hlock] at hstep
    cases hstep

lemma of_previewCallback {recorded : Bool}
    (hstep : s.step (.previewCallback recorded) = some s') :
    ∃ e, s.preview = .checked e ∧
      (recorded = false ∧ s' = { s with preview := .called e } ∨
        recorded = true ∧ ∃ i, e.ptr = .buf i ∧ s' = { s.addRef i with
          encoder := { e with ptr := .buf (s.v4l2buf i).index } :: s.encoder
          preview := .called e }) := by
  simp only [step] at hstep
  split at hstep
  swap
  · cases hstep
  rename_i e hp
  refine ⟨e, hp, ?_⟩
  cases recorded with
  | false => exact Or.inl ⟨rfl, (Option.some.inj hstep).symm⟩
  | true =>
    cases hi : e.ptr with
    | pic =>
      simp only [hi, if_true] at hstep
      cases hstep
    | buf i =>
      simp only [hi, if_true] at hstep
      exact Or.inr ⟨rfl, i, rfl, (Option.some.inj hstep).symm⟩

lemma of_previewRelease {ok : Bool} (hstep : s.step (.previewRelease ok) = some s') :
    ∃ e, s.preview = .called e ∧
      s' = { s.releasePreviewFrame (s.deref e.ptr).index ok with preview := .idle } := by
  simp only [step] at hstep
  split at hstep
  swap
  · cases hstep
  rename_i e hp
  exact ⟨e, hp, (Option.some.inj hstep).symm⟩

lemma of_pictureDequeue (hstep : s.step .pictureDequeue = some s') :
    ∃ e q, s.picture = .idle ∧ s.queueBufferPicture = e :: q ∧
      s' = { s with queueBufferPicture := q, picture := .got e } := by
  simp only [step] at hstep
  split at hstep
  swap
  · cases hstep
  rename_i e q hp hq
  exact ⟨e, q, hp, hq, (Option.some.inj hstep).symm⟩

lemma of_pictureTake (hstep : s.step .pictureTake = some s') :
    ∃ e, s.picture = .got e ∧ s' = { s.take e false with picture := .taken e } := by
  simp only [step] at hstep
  split at hstep
  swap
  · cases hstep
  rename_i e hp
  exact ⟨e, hp, (Option.some.inj hstep).symm⟩

lemma of_pictureCopyTest (hstep : s.step .pictureCopyTest = some s') :
    ∃ e, s.picture = .taken e ∧
      s' = { s with
        picture := if s.isPicCopy then .idle else .release e (s.deref e.ptr).index } := by
  simp only [step] at hstep
  split at hstep
  swap
  · cases hstep
  rename_i e hp
  exact ⟨e, hp, (Option.some.inj hstep).symm⟩

lemma of_pictureRelease {ok : Bool} (hstep : s.step (.pictureRelease ok) = some s') :
    ∃ e i, s.picture = .release e i ∧
      s' = { s.releasePreviewFrame i ok with picture := .idle } := by
  simp only [step] at hstep
  split at hstep
  swap
  · cases hstep
  rename_i e i hp
  exact ⟨e, i, hp, (Option.some.inj hstep).symm⟩

lemma of_smartDequeue (hstep : s.step .smartDequeue = some s') :
    ∃ e q, s.smart = .idle ∧ s.queueBufferPicture = e :: q ∧
      s' = { s with queueBufferPicture := q, smart := .got e } := by
  simp only [step] at hstep
  split at hstep
  swap
  · cases hstep
  rename_i e q hp hq
  exact ⟨e, q, hp, hq, (Option.some.inj hstep).symm⟩

lemma of_smartDoneTest (hstep : s.step .smartDoneTest = some s') :
    ∃ e, s.smart = .got e ∧ (s' = { s with takePictureState := .null, smart := .taken e } ∨
      s' = { s with smart := .blink e }) := by
  simp only [step] at hstep
  split at hstep
  swap
  · cases hstep
  rename_i e hp
  refine ⟨e, hp, ?_⟩
  split_ifs at hstep
  · exact Or.inl (Option.some.inj hstep).symm
  · exact Or.inr (Option.some.inj hstep).symm

lemma of_smartBlink {hit : Bool} (hstep : s.step (.smartBlink hit) = some s') :
    ∃ e, s.smart = .blink e ∧ s' = { s.takeSmart e hit with smart := .smile e } := by
  simp only [step] at hstep
  split at hstep
  swap
  · cases hstep
  rename_i e hp
  exact ⟨e, hp, (Option.some.inj hstep).symm⟩

lemma of_smartSmile {hit : Bool} (hstep : s.step (.smartSmile hit) = some s') :
    ∃ e, s.smart = .smile e ∧ s' = { s.takeSmart e hit with smart := .taken e } := by
  simp only [step] at hstep
  split at hstep
  swap
  · cases hstep
  rename_i e hp
  exact ⟨e, hp, (Option.some.inj hstep).symm⟩

lemma of_smartCopyTest (hstep : s.step .smartCopyTest = some s') :
    ∃ e, s.smart = .taken e ∧
      s' = { s with smart := if s.isPicCopy then .idle else .release e (s.deref e.ptr).index } := by
  simp only [step] at hstep
  split at hstep
  swap
  · cases hstep
  rename_i e hp
  exact ⟨e, hp, (Option.some.inj hstep).symm⟩

lemma of_smartRelease {ok : Bool} (hstep : s.step (.smartRelease ok) = some s') :
    ∃ e i, s.smart = .release e i ∧ s' = { s.releasePreviewFrame i ok with smart := .idle } := by
  simp only [step] at hstep
  split at hstep
  swap
  · cases hstep
  rename_i e i hp
  exact ⟨e, i, hp, (Option.some.inj hstep).symm⟩

lemma of_continuousDequeue (hstep : s.step .continuousDequeue = some s') :
    ∃ e q, s.continuous = .idle ∧ s.queueBufferPicture = e :: q ∧
      s' = { s with queueBufferPicture := q, continuous := .got e } := by
  simp only [step] at hstep
  split at hstep
  swap
  · cases hstep
  rename_i e q hp hq
  exact ⟨e, q, hp, hq, (Option.some.inj hstep).symm⟩

lemma of_continuousCheck (hstep : s.step .continuousCheck = some s') :
    ∃ e, s.continuous = .got e ∧ s.ObjectLockFree ∧
      s' = { s with continuous := if s.Released e then .idle else .checked e } := by
  simp only [step] at hstep
  split at hstep
  swap
  · cases hstep
  rename_i e hp
  by_cases hlock : s.ObjectLockFree
  · rw [if_pos hlock] at hstep
    exact ⟨e, hp, hlock, (Option.some.inj hstep).symm⟩
  · rw [if_neg hlock] at hstep
    cases hstep

lemma of_continuousTake {ret : Bool} (hstep : s.step (.continuousTake ret) = some s') :
    ∃ e, s.continuous = .checked e ∧
      s' = { s.takeContinuous e ret with continuous := .done e } := by
  simp only [step] at hstep
  split at hstep
  swap
  · cases hstep
  rename_i e hp
  exact ⟨e, hp, (Option.some.inj hstep).symm⟩

lemma of_continuousRelease {ok : Bool} (hstep : s.step (.continuousRelease ok) = some s') :
    ∃ e, s.continuous = .done e ∧
      s' = { s.releasePreviewFrame (s.deref e.ptr).index ok with continuous := .idle } := by
  simp only [step] at hstep
  split at hstep
  swap
  · cases hstep
  rename_i e hp
  exact ⟨e, hp, (Option.some.inj hstep).symm⟩

lemma of_encoderRelease {e : Entry} {ok : Bool}
    (hstep : s.step (.encoderRelease e ok) = some s') :
    ∃ i, e.ptr = .buf i ∧ e ∈ s.encoder ∧
      s' = { s.releasePreviewFrame i ok with encoder := s.encoder.erase e } := by
  simp only [step] at hstep
  split at hstep
  swap
  · cases hstep
  rename_i i hi
  split_ifs at hstep with he
  exact ⟨i, hi, he, (Option.some.inj hstep).symm⟩

end Steps

end State

/-- Runs whose actions all satisfy `Ok`. -/
abbrev Run (Ok : Act → State → Prop) : State → State → Prop :=
  Relation.ReflTransGen fun s s' => ∃ a, Ok a s ∧ s.step a = some s'

/-- The device after its construction, when the copy of a picture has the address `phy`.  The
entries of `mV4l2buf` are not initialised. -/
def constructed (phy : ℕ) (v4l2buf : Fin nbBuffer → V4L2Buf) : State where
  takePictureState := .null
  isPicCopy := false
  paused := true
  started := false
  mapMem _ := false
  v4l2buf i := { v4l2buf i with session := 0 }
  picBuffer := { V4L2Buf.cleared with addrPhyY := phy }
  curAvailBufferCnt := 0
  smartPictureDone := true
  continuousPictureStarted := false
  continuousPictureCnt := 0
  continuousPictureMax := 0
  queueBufferPreview := []
  queueBufferPicture := []
  capture := .idle
  preview := .idle
  picture := .idle
  smart := .idle
  continuous := .idle
  driver := ∅
  encoder := []
  session := 0
  frames := 0
  dqbufs _ := 0
  qbufs _ := 0
  queued := []
  taken := []

end Softwinner.Camera

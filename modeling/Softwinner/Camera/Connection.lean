import Softwinner.Camera.Device
import Softwinner.Framework.Ledger

/-!
# The connection to the driver

`connectDevice`, `startDevice`, `stopDevice`, `disconnectDevice` and what they call, from
`V4L2CameraDevice2.cpp`: the device node that is open, the buffers of the driver that are mapped,
and the memory from the allocator.  `Driver` has the answers of the driver and of the allocator
during one call.  The queues and the threads behind them are in `Camera.Device`; of the capture
thread there is here what the handshake of `stopDevice` needs.

A call gives `none` when it does not return, or writes behind the arrays of the mapped buffers.
-/

namespace Softwinner.Camera.Connection

open Framework

/-! ## State -/

/-- `mCameraDeviceState`. -/
inductive CameraDeviceState
  | constructed | connected | started
  deriving DecidableEq

/-- `mCaptureThreadState`. -/
inductive CaptureThreadState
  | null | paused | started | exit
  deriving DecidableEq

/-- The answers for one buffer: to `VIDIOC_QUERYBUF`, `mmap` and `VIDIOC_QBUF`. -/
inductive BufferAnswer
  | notQueried | notMapped | notQueued | ok
  deriving DecidableEq

/-- `opens` is for the device node, `accepts` for the rest of `openCameraDev`; `acks` is whether
the capture thread passes its pause while the call goes on. -/
structure Driver where
  opens : Bool
  usb : Bool
  accepts : Bool
  allocOpens : Bool
  setFmt : Bool
  reqBufs : ℕ → Option ℕ
  buffer : ℕ → BufferAnswer
  streamOn : Bool
  munmap : ℕ → Bool
  acks : Bool

/-- The members of `V4L2CameraDevice`, and what it has obtained: open files, mappings, and blocks
of the allocator. -/
structure State where
  deviceState : CameraDeviceState
  captureState : CaptureThreadState
  takePictureState : TakePictureState
  canBeDisconnected : Bool
  /-- The capture thread has not returned `false`. -/
  alive : Bool
  isUsbCamera : Bool
  cameraFd : Option ℕ
  bufferCnt : ℕ
  mapMem : ℕ → Option ℕ
  bufVirAddr : ℕ → Option ℕ
  picBuffer : Option ℕ
  files : Ledger
  maps : Ledger
  blocks : Ledger

/-- Behind the constructor. -/
def initial : State where
  deviceState := .constructed
  captureState := .paused
  takePictureState := .null
  canBeDisconnected := false
  alive := true
  isUsbCamera := false
  cameraFd := none
  bufferCnt := nbBuffer
  mapMem _ := none
  bufVirAddr _ := none
  picBuffer := none
  files := .empty
  maps := .empty
  blocks := .empty

namespace State

variable (s : State) (d : Driver)

/-! ## Connecting -/

/-- The device node is closed if it is open; `CHECK_NO_ERROR` does no more than that. -/
def closeCameraDev : State := { s with files := s.files.releaseIf s.cameraFd, cameraFd := none }

def openCameraDev : State × Bool :=
  if d.opens then
    let s := { s with
      files := s.files.alloc, cameraFd := some s.files.next, isUsbCamera := s.isUsbCamera || d.usb }
    if d.accepts then (s, true) else (s.closeCameraDev, false)
  else ({ s with cameraFd := none }, false)

def connectDevice : State × Bool :=
  if s.deviceState = .constructed then
    match s.openCameraDev d with
    | (s, false) => (s, false)
    | (s, true) =>
      if d.allocOpens then
        ({ s with
          blocks := s.blocks.alloc, picBuffer := some s.blocks.next, deviceState := .connected },
          true)
      else (s.closeCameraDev, false)
  else (s, true)

/-- `mPicBuffer` is freed and not reset. -/
def disconnectDevice : State × Bool :=
  match s.deviceState with
  | .constructed => (s, true)
  | .started => (s, false)
  | .connected =>
    let s := s.closeCameraDev
    ({ s with blocks := s.blocks.releaseIf s.picBuffer, deviceState := .constructed }, true)

/-! ## Starting and stopping -/

/-- Buffer `i` has been mapped. -/
def mapBuf (i : ℕ) : State :=
  { s with maps := s.maps.alloc, mapMem := Function.update s.mapMem i (some s.maps.next) }

/-- A USB camera has its frames converted into memory of the allocator. -/
def allocBuf (i : ℕ) : State :=
  if s.isUsbCamera then
    { s with
      blocks := s.blocks.alloc, bufVirAddr := Function.update s.bufVirAddr i (some s.blocks.next) }
  else s

/-- `v4l2QueryBuf`, for `n` buffers from `i` on. -/
def queryBuf (d : Driver) (s : State) (i : ℕ) : ℕ → State × Bool
  | 0 => (s, true)
  | n + 1 =>
    match d.buffer i with
    | .notQueried => (s, false)
    | .notMapped => ({ s with mapMem := Function.update s.mapMem i none }, false)
    | .notQueued => (s.mapBuf i, false)
    | .ok => queryBuf d ((s.mapBuf i).allocBuf i) (i + 1) n

/-- The buffers that are asked for. -/
def wanted : ℕ := if s.takePictureState = .normal then 1 else nbBuffer

/-- The rest of `startDevice`, with the buffers that the driver gives. -/
def startBuffers (cnt : ℕ) : State × Bool :=
  match queryBuf d { s with bufferCnt := cnt } 0 cnt with
  | (s, false) => (s.closeCameraDev, false)
  | (s, true) =>
    if d.streamOn then ({ s with deviceState := .started }, true) else (s.closeCameraDev, false)

def startDevice : Option (State × Bool) :=
  if s.deviceState = .connected then
    let s := { s with canBeDisconnected := false }
    if s.cameraFd.isSome ∧ d.setFmt then
      match d.reqBufs s.wanted with
      | none => some (s.closeCameraDev, false)
      | some cnt => if nbBuffer < cnt then none else some (s.startBuffers d cnt)
    else some (s.closeCameraDev, false)
  else some (s, false)

/-- The release of buffer `i`; `mVideoBuffer.buf_vir_addr[i]` is not reset. -/
def unmap (i : ℕ) : State :=
  { s with
    maps := s.maps.releaseIf (s.mapMem i), mapMem := Function.update s.mapMem i none
    blocks := s.blocks.releaseIf (s.bufVirAddr i) }

/-- `v4l2UnmapBuf`, for `n` buffers from `i` on. -/
def unmapBuf (d : Driver) (s : State) (i : ℕ) : ℕ → State
  | 0 => s
  | n + 1 => if d.munmap i then unmapBuf d (s.unmap i) (i + 1) n else s

/-- The capture thread comes to its pause, where it signals that the device can be
disconnected. -/
def Pauses : Prop :=
  s.alive = true ∧ (s.captureState = .paused ∨ s.captureState = .exit)

instance : Decidable s.Pauses := inferInstanceAs (Decidable (_ ∧ _))

def stopDevice : Option State :=
  if s.canBeDisconnected = true ∨ s.Pauses then
    let s := { s with canBeDisconnected := true }
    if s.deviceState = .started then
      some { unmapBuf d s 0 s.bufferCnt with deviceState := .connected }
    else some s
  else none

/-- The thread may still pass its pause before it is asked to go on. -/
def startDeliveringFrames : State × Bool :=
  if s.captureState = .null then (s, false)
  else
    ({ s with
      captureState := .started
      canBeDisconnected := s.canBeDisconnected || (d.acks && decide s.Pauses) }, true)

def stopDeliveringFrames : State :=
  if s.captureState = .null then s else { s with captureState := .paused }

end State

/-! ## Calls -/

/-- What is decided elsewhere about a frame: it is too large for `mPicBuffer`, the queue of the
pictures is full, it is queued as a picture. -/
structure Frame where
  tooLarge : Bool
  full : Bool
  picture : Bool

/-- The calls of the device, and the steps of its threads: the capture thread at its pause and
with a frame, and the end of a picture of the smart and of the continuous mode. -/
inductive Call
  | connectDevice
  | startDevice
  | stopDevice
  | disconnectDevice
  | startDeliveringFrames
  | stopDeliveringFrames
  | setTakePictureState (t : TakePictureState)
  | pause
  | frame (f : Frame)
  | pictureDone

/-- `captureThread` with a frame, as far as it changes the state of the capture. -/
def State.captureFrame (s : State) (f : Frame) : State :=
  if s.takePictureState = .normal then
    if f.tooLarge then { s with alive := false }
    else if f.full then s
    else { s with captureState := .paused, takePictureState := .null }
  else if f.picture ∧ (s.takePictureState = .fast ∨ s.takePictureState = .record) then
    { s with takePictureState := .null }
  else s

def step (s : State) : Driver × Call → Option State
  | (d, .connectDevice) => some (s.connectDevice d).1
  | (d, .startDevice) => (s.startDevice d).map Prod.fst
  | (d, .stopDevice) => s.stopDevice d
  | (_, .disconnectDevice) => some s.disconnectDevice.1
  | (d, .startDeliveringFrames) => some (s.startDeliveringFrames d).1
  | (_, .stopDeliveringFrames) => some s.stopDeliveringFrames
  | (_, .setTakePictureState t) => some { s with takePictureState := t }
  | (_, .pause) => if s.Pauses then some { s with canBeDisconnected := true } else none
  | (_, .frame f) =>
    if s.alive ∧ s.captureState = .started ∧ s.deviceState = .started then
      some (s.captureFrame f)
    else none
  | (_, .pictureDone) => some { s with takePictureState := .null }

end Softwinner.Camera.Connection

import Mathlib.Logic.Function.Basic
import Mathlib.Tactic.SplitIfs
import Softwinner.Audio.InputStream
import Softwinner.Framework.Ledger
import Softwinner.Framework.Runs

/-!
# The echo reference

What the streams share: `active_output`, `active_input`, and the echo reference that an input with
an echo canceller reads and the outputs write to.  The device has one at most.  `get_echo_reference`
releases the one that there is before it makes another, and `put_echo_reference` takes it away from
the active output, but not from other outputs or inputs that still have it.

A step is what a call does without letting go of its locks: `out_write` is two steps, and so is each
key of `out_set_parameters`.  `out_standby` and `adev_close_output_stream`, which do not lock the
device, are taken as if they did.  The cards and the mixer are in `Audio.OutputStream` and
`Audio.InputStream`.
-/

namespace Softwinner.Audio.EchoReference

open Framework
open OutputStream (Mode deviceOutSpeaker deviceOutAuxDigital deviceOutDgtlDockHeadset)
open InputStream (ParamsInput maxPreprocessors deviceBitIn)

/-! ## State -/

/-- `force_input_standby` is that of the `out_write` that runs. -/
structure Out where
  standby : Bool
  echoReference : Option ℕ
  forceInputStandby : Bool

structure In where
  device : BitVec 32
  source : ℤ
  standby : Bool
  preprocessors : List ℕ
  needEchoReference : Bool
  echoReference : Option ℕ

/-- The device, its streams, and the echo references that it has made. -/
structure State where
  mode : Mode
  inCall : Bool
  rawFlag : Bool
  outDevice : BitVec 32
  firstSetAudioRouting : Bool
  references : Ledger
  echoReference : Option ℕ
  outStreams : Ledger
  outs : ℕ → Out
  activeOutput : Option ℕ
  inStreams : Ledger
  ins : ℕ → In
  activeInput : Option ℕ

def newOut : Out := ⟨true, none, false⟩

def newIn (device : BitVec 32) : In := ⟨device &&& ~~~ deviceBitIn, 0, true, [], false, none⟩

/-- The device after `adev_open`. -/
def initial : State where
  mode := .normal
  inCall := false
  rawFlag := false
  outDevice := deviceOutSpeaker
  firstSetAudioRouting := true
  references := .empty
  echoReference := none
  outStreams := .empty
  outs _ := newOut
  activeOutput := none
  inStreams := .empty
  ins _ := newIn 0
  activeInput := none

/-- How `pcm_open`, `create_resampler` if it is called, and `pcm_write` go on one card. -/
structure Card where
  opens : Bool
  resamples : Bool
  writes : Bool

/-- What an `out_write` finds: the raw mode is a new one, the property `audio.routing`, and the
cards that are active. -/
structure WriteInput where
  rawChanged : Bool
  routing : Option (BitVec 32)
  cards : List Card

/-- What an `in_read` finds: the AF ring is read, and how `pcm_open_req`, `create_resampler` if it
is called, and `create_echo_reference` go. -/
structure ReadInput where
  afMode : Bool
  opens : Bool
  resamples : Bool
  creates : Bool

/-- `AUDIO_SOURCE_VOICE_COMMUNICATION`. -/
def sourceVoiceCommunication : ℤ := 7

def deviceOutEarpiece : BitVec 32 := 0x1

namespace State

variable (s : State)

def setOut (o : ℕ) (x : Out) : State := { s with outs := Function.update s.outs o x }

def setIn (i : ℕ) (x : In) : State := { s with ins := Function.update s.ins i x }

/-- The memory of a stream is looked at. -/
def useOut (o : ℕ) : State := { s with outStreams := s.outStreams.use o }

@[inherit_doc useOut]
def useIn (i : ℕ) : State := { s with inStreams := s.inStreams.use i }

/-! ## The reference -/

/-- The output stops writing to the reference. -/
def removeEchoReference (o r : ℕ) : State :=
  let s := s.useOut o
  if (s.outs o).echoReference = some r then
    { s.setOut o { s.outs o with echoReference := none } with references := s.references.use r }
  else s

def putEchoReference (reference : Option ℕ) : State :=
  match s.echoReference with
  | none => s
  | some r =>
    if reference = some r then
      let s := match s.activeOutput with
        | some o => s.removeEchoReference o r
        | none => s
      { s with references := s.references.release r, echoReference := none }
    else s

/-- The result is the reference of the device. -/
def getEchoReference (creates : Bool) : State :=
  let s := s.putEchoReference s.echoReference
  match s.activeOutput with
  | none => s
  | some o =>
    let s := s.useOut o
    if creates then
      let r := s.references.next
      { s.setOut o { s.outs o with echoReference := some r } with
        references := s.references.alloc, echoReference := some r }
    else s

/-! ## Standby -/

def doOutputStandby (o : ℕ) : State :=
  if (s.outs o).standby then s
  else
    { s.setOut o { s.outs o with standby := true, echoReference := none } with
      activeOutput := none, references := s.references.useIf (s.outs o).echoReference }

def doInputStandby (i : ℕ) : State :=
  if (s.ins i).standby then s
  else
    let s := { s with activeInput := none }
    let s := match (s.ins i).echoReference with
      | some r => State.putEchoReference { s with references := s.references.use r } (some r)
      | none => s
    s.setIn i { s.ins i with echoReference := none, standby := true }

/-- The active input is sent to standby. -/
def forceActiveInput : State :=
  match s.activeInput with
  | some i => (s.useIn i).doInputStandby i
  | none => s

def forceActiveOutput : State :=
  match s.activeOutput with
  | some o => (s.useOut o).doOutputStandby o
  | none => s

def forceAllStandby : State := s.forceActiveOutput.forceActiveInput

/-- The active input is for voice communication. -/
def voiceCommunication : Bool :=
  match s.activeInput with
  | some i => (s.ins i).source == sourceVoiceCommunication
  | none => false

/-- `active_input` is looked at. -/
def lookAtInput : State :=
  match s.activeInput with
  | some i => s.useIn i
  | none => s

/-! ## Output streams -/

end State

/-- The loop of `start_output_stream`. -/
def openCards (o : ℕ) : List Card → State → State × Bool
  | [], s => (s, true)
  | c :: cs, s =>
    if c.opens then
      let s := match s.echoReference with
        | some r => s.setOut o { s.outs o with echoReference := some r }
        | none => s
      if c.resamples then openCards o cs s else (s, false)
    else ({ s with activeOutput := none }, false)

/-- The loop of `out_write`. -/
def writeCards (o : ℕ) : List Card → State → State
  | [], s => s
  | c :: cs, s =>
    let s := { s with references := s.references.useIf (s.outs o).echoReference }
    if c.writes then writeCards o cs s else s.doOutputStandby o

namespace State

variable (s : State) (o i : ℕ)

/-- The property `audio.routing`, where it is a known device. -/
def routed (routing : Option (BitVec 32)) : BitVec 32 :=
  match routing with
  | some d =>
    if d = deviceOutSpeaker ∨ d = deviceOutAuxDigital ∨ d = deviceOutDgtlDockHeadset then d
    else s.outDevice
  | none => s.outDevice

def startOutputStream (x : WriteInput) : State × Bool :=
  if s.mode.blocked || s.rawFlag then (s, true)
  else openCards o x.cards { s with outDevice := s.routed x.routing, activeOutput := some o }

/-- `out_write` behind a successful start. -/
def leaveStandby : State :=
  s.lookAtInput.setOut o
    { s.outs o with standby := false, forceInputStandby := s.voiceCommunication }

/-- `out_write` behind the raw mode. -/
def write (x : WriteInput) : State :=
  if s.rawFlag then s
  else if (s.outs o).standby then
    match s.startOutputStream o x with
    | (s, false) => s
    | (s, true) => writeCards o x.cards.reverse (s.leaveStandby o)
  else writeCards o x.cards.reverse s

/-- `out_write`, up to where it unlocks the stream. -/
def outWrite (x : WriteInput) : State :=
  if s.mode.blocked then s
  else if x.rawChanged then (s.doOutputStandby o).write o x
  else s.write o x

/-- The end of `out_write`. -/
def outWriteEnd : State :=
  if (s.outs o).forceInputStandby then
    s.forceActiveInput.setOut o { s.forceActiveInput.outs o with forceInputStandby := false }
  else s

/-- To or from HDMI or the dock, the output is sent to standby. -/
def moveOutput (val : BitVec 32) : State :=
  if val &&& deviceOutAuxDigital ≠ s.outDevice &&& deviceOutAuxDigital ∨
      val &&& deviceOutDgtlDockHeadset ≠ s.outDevice &&& deviceOutDgtlDockHeadset then
    { s.doOutputStandby o with outDevice := val }
  else { s with outDevice := val }

/-- `AUDIO_PARAMETER_STREAM_ROUTING`. -/
def setRouting (val : BitVec 32) : State :=
  if s.firstSetAudioRouting then { s with firstSetAudioRouting := false }
  else if s.outDevice ≠ val ∧ val ≠ 0 then
    if s.activeOutput = some o then
      if s.voiceCommunication then (s.lookAtInput.moveOutput o val).forceActiveInput
      else s.lookAtInput.moveOutput o val
    else { s with outDevice := val }
  else s

/-- `AUDIO_PARAMETER_DEVICES_OUT_ACTIVE`. -/
def setDevicesOutActive : State := if s.rawFlag then s else s.doOutputStandby o

/-- `AUDIO_PARAMETER_RAW_DATA_OUT`. -/
def setRawDataOut (val : Bool) : State :=
  if s.rawFlag ≠ val then State.doOutputStandby { s with rawFlag := val } o else s

def closeOutputStream : State :=
  if s.mode.blocked then s
  else { s.doOutputStandby o with outStreams := (s.doOutputStandby o).outStreams.release o }

/-! ## Input streams -/

/-- An input with an echo canceller gets a reference. -/
def needReference (creates : Bool) : State :=
  if (s.ins i).needEchoReference = true ∧ (s.ins i).echoReference = none then
    let s := s.getEchoReference creates
    s.setIn i { s.ins i with echoReference := s.echoReference }
  else s

def startInputStream (x : ReadInput) : State × Bool :=
  let s := { s with activeInput := some i }
  if s.mode = .inCall then (s, true)
  else
    let s := s.needReference i x.creates
    if x.opens then (s, x.resamples) else ({ s with activeInput := none }, false)

def inRead (x : ReadInput) : State :=
  if s.mode = .inCall then s
  else if x.afMode then s.setIn i { s.ins i with standby := false }
  else if (s.ins i).standby then
    match s.startInputStream i x with
    | (s, true) => s.setIn i { s.ins i with standby := false }
    | (s, false) => s
  else s

end State

/-- `in_set_parameters` up to its standby, and whether it asks for that. -/
def In.setParameters (x : In) (mode : Mode) (params : ParamsInput) : In × Bool :=
  let (x, newSource) := match params.inputSource with
    | some val => if x.source ≠ val ∧ val ≠ 0 then ({ x with source := val }, true) else (x, false)
    | none => (x, false)
  let (x, newDevice) := match params.routing with
    | some val =>
      let val := val &&& ~~~ deviceBitIn
      if mode ≠ .inCall ∧ x.device ≠ val ∧ val ≠ 0 then ({ x with device := val }, true)
      -- in a call, it is the source that is compared
      else if mode = .inCall ∧ x.source ≠ val.toInt ∧ val ≠ 0 then ({ x with device := val }, false)
      else (x, false)
    | none => (x, false)
  (x, newSource || newDevice || params.devicesInActive)

/-- `in_add_audio_effect` up to its standby; the descriptor says whether the effect is an AEC. -/
def In.addAudioEffect (x : In) (effect : ℕ) (descriptor : Option Bool) : In × Bool :=
  if maxPreprocessors ≤ x.preprocessors.length then (x, false)
  else
    match descriptor with
    | none => (x, false)
    | some aec =>
      ({ x with
        preprocessors := x.preprocessors ++ [effect]
        needEchoReference := x.needEchoReference || aec }, aec)

def In.removeAudioEffect (x : In) (effect : ℕ) (descriptor : Option Bool) : In × Bool :=
  if effect ∈ x.preprocessors then
    let x := { x with preprocessors := x.preprocessors.erase effect }
    match descriptor with
    | some true => ({ x with needEchoReference := false }, true)
    | _ => (x, false)
  else (x, false)

namespace State

variable (s : State) (i : ℕ)

/-- A change to an input that may ask for standby. -/
def change (x : In × Bool) : State :=
  if x.2 then (s.setIn i x.1).doInputStandby i else s.setIn i x.1

def closeInputStream : State :=
  { s.doInputStandby i with inStreams := (s.doInputStandby i).inStreams.release i }

/-! ## The mode -/

/-- A call does not begin on the speaker. -/
def callDevice : BitVec 32 :=
  if s.outDevice = deviceOutSpeaker then deviceOutEarpiece
  else s.outDevice &&& ~~~ deviceOutSpeaker

/-- A call is entered or left. -/
def selectCall : State :=
  if s.mode = .inCall ∨ s.mode = .factoryTest then
    if s.inCall then s
    else { s.forceAllStandby with outDevice := s.forceAllStandby.callDevice, inCall := true }
  else if s.inCall then State.forceAllStandby { s with inCall := false }
  else s

def selectMode : State :=
  if s.selectCall.mode = .fm then s.selectCall.forceAllStandby else s.selectCall

def setMode (mode : Mode) : State :=
  if s.mode ≠ mode then selectMode { s with mode := mode } else s

end State

/-! ## Steps -/

inductive Act
  | openOutputStream
  | outWrite (o : ℕ) (x : WriteInput)
  | outWriteEnd (o : ℕ)
  | outStandby (o : ℕ)
  | setRouting (o : ℕ) (val : BitVec 32)
  | setDevicesOutActive (o : ℕ)
  | setRawDataOut (o : ℕ) (val : Bool)
  | closeOutputStream (o : ℕ)
  | openInputStream (device : BitVec 32)
  | inRead (i : ℕ) (x : ReadInput)
  | inStandby (i : ℕ)
  | inSetParameters (i : ℕ) (x : ParamsInput)
  | inAddAudioEffect (i effect : ℕ) (descriptor : Option Bool)
  | inRemoveAudioEffect (i effect : ℕ) (descriptor : Option Bool)
  | closeInputStream (i : ℕ)
  | setMode (mode : Mode)

/-- A call is for a stream that is open, and a write comes behind the one before it. -/
def step (s : State) : Act → Option State
  | .openOutputStream =>
    some { s.setOut s.outStreams.next newOut with outStreams := s.outStreams.alloc }
  | .outWrite o x =>
    if s.outStreams.Live o ∧ (s.outs o).forceInputStandby = false then some (s.outWrite o x)
    else none
  | .outWriteEnd o => if s.outStreams.Live o then some (s.outWriteEnd o) else none
  | .outStandby o => if s.outStreams.Live o then some (s.doOutputStandby o) else none
  | .setRouting o val => if s.outStreams.Live o then some (s.setRouting o val) else none
  | .setDevicesOutActive o => if s.outStreams.Live o then some (s.setDevicesOutActive o) else none
  | .setRawDataOut o val => if s.outStreams.Live o then some (s.setRawDataOut o val) else none
  | .closeOutputStream o => if s.outStreams.Live o then some (s.closeOutputStream o) else none
  | .openInputStream device =>
    some { s.setIn s.inStreams.next (newIn device) with inStreams := s.inStreams.alloc }
  | .inRead i x => if s.inStreams.Live i then some (s.inRead i x) else none
  | .inStandby i => if s.inStreams.Live i then some (s.doInputStandby i) else none
  | .inSetParameters i x =>
    if s.inStreams.Live i then some (s.change i ((s.ins i).setParameters s.mode x)) else none
  | .inAddAudioEffect i effect descriptor =>
    if s.inStreams.Live i then some (s.change i ((s.ins i).addAudioEffect effect descriptor))
    else none
  | .inRemoveAudioEffect i effect descriptor =>
    if s.inStreams.Live i then some (s.change i ((s.ins i).removeAudioEffect effect descriptor))
    else none
  | .closeInputStream i => if s.inStreams.Live i then some (s.closeInputStream i) else none
  | .setMode mode => some (s.setMode mode)

/-! ## The property, and the condition -/

/-- No pointer dangles, and nothing has been used behind its release: what the streams have is the
reference of the device, which is the only one, and the active streams are open. -/
structure Good (s : State) : Prop where
  references : s.references.Balanced fun r => s.echoReference = some r
  outStreams : s.outStreams.Balanced s.outStreams.Live
  inStreams : s.inStreams.Balanced s.inStreams.Live
  outs : ∀ o, s.outStreams.Live o → ∀ r, (s.outs o).echoReference = some r →
    s.echoReference = some r
  ins : ∀ i, s.inStreams.Live i → ∀ r, (s.ins i).echoReference = some r → s.echoReference = some r
  activeOutput : ∀ o, s.activeOutput = some o → s.outStreams.Live o
  activeInput : ∀ i, s.activeInput = some i → s.inStreams.Live i

/-- Beside this input, only the active output may have a reference. -/
structure Alone (s : State) (i : ℕ) : Prop where
  ins : ∀ j, s.inStreams.Live j → j ≠ i → (s.ins j).echoReference = none
  outs : ∀ o, s.outStreams.Live o → s.activeOutput ≠ some o → (s.outs o).echoReference = none

/-- The standby of an input that has a reference releases it. -/
def StandbyOk (s : State) (i : ℕ) : Prop :=
  (s.ins i).standby = false → (s.ins i).echoReference ≠ none → Alone s i

/-- The same for the active one. -/
def ForceOk (s : State) : Prop := ∀ i, s.activeInput = some i → StandbyOk s i

/-- The read makes a reference. -/
structure Makes (s : State) (i : ℕ) (x : ReadInput) : Prop where
  mode : s.mode ≠ .inCall
  card : x.afMode = false
  standby : (s.ins i).standby = true
  need : (s.ins i).needEchoReference = true
  none : (s.ins i).echoReference = none

/-- The routing of the output in use is changed while the input is for voice communication. -/
structure Reroutes (s : State) (o : ℕ) (val : BitVec 32) : Prop where
  first : s.firstSetAudioRouting = false
  changes : s.outDevice ≠ val ∧ val ≠ 0
  active : s.activeOutput = some o
  voice : s.voiceCommunication = true

/-- A call is entered or left. -/
def Calls (s : State) (mode : Mode) : Prop :=
  if mode = .inCall ∨ mode = .factoryTest then s.inCall = false else s.inCall = true

/-- The change of the mode sends the active streams to standby. -/
def Forces (s : State) (mode : Mode) : Prop := s.mode ≠ mode ∧ (mode = .fm ∨ Calls s mode)

/-- A reference is released only if nobody else has it, and the active streams are not closed; a
stream in standby is the active one when its start has failed at the resampler. -/
def Ok : Act → State → Prop
  | .outWriteEnd o, s => (s.outs o).forceInputStandby = true → ForceOk s
  | .setRouting o val, s => Reroutes s o val → ForceOk s
  | .closeOutputStream o, s =>
    s.mode.blocked = false → (s.outs o).standby = true → s.activeOutput ≠ some o
  | .inRead i x, s => Makes s i x → Alone s i
  | .inStandby i, s => StandbyOk s i
  | .inSetParameters i x, s => ((s.ins i).setParameters s.mode x).2 = true → StandbyOk s i
  | .inAddAudioEffect i effect descriptor, s =>
    ((s.ins i).addAudioEffect effect descriptor).2 = true → StandbyOk s i
  | .inRemoveAudioEffect i effect descriptor, s =>
    ((s.ins i).removeAudioEffect effect descriptor).2 = true → StandbyOk s i
  | .closeInputStream i, s =>
    StandbyOk s i ∧ ((s.ins i).standby = true → s.activeInput ≠ some i)
  | .setMode mode, s => Forces s mode → ForceOk s
  | _, _ => True

end Softwinner.Audio.EchoReference

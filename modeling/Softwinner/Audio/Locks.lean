import Mathlib.Order.Lattice
import Softwinner.Framework.LockOrder

/-!
# The mutexes of the audio HAL

The note in `audio_hw.c` asks for the order hw device, in stream, out stream.  Here is what every
entry point does to these mutexes, and to that of the AF ring, on each of its paths.  A path is
given by the outcomes of the tests that the source makes; all combinations are allowed.

`lockOrder` says that the order is kept, and that any number of threads can always go on.
-/

namespace Softwinner.Audio.Locks

open Framework Framework.LockOp

/-! ## Mutexes -/

inductive Mutex
  | adev | inStream | outStream | ring
  deriving DecidableEq

/-- The order of the note; the mutex of the ring is below all. -/
def Mutex.rank : Mutex → ℕ
  | .adev => 0
  | .inStream => 1
  | .outStream => 2
  | .ring => 3

lemma Mutex.rank_injective : Function.Injective Mutex.rank := by
  intro a b h
  cases a <;> cases b <;> first | rfl | exact absurd h (by decide)

instance : LinearOrder Mutex := LinearOrder.lift' Mutex.rank Mutex.rank_injective

lemma Mutex.rank_lt_four (m : Mutex) : m.rank < 4 := by cases m <;> decide

instance : WellFoundedGT Mutex where
  wf := by
    have hsub : ∀ {a b : Mutex}, a > b → 4 - a.rank < 4 - b.rank := by
      intro a b (hab : b.rank < a.rank)
      have := a.rank_lt_four
      omega
    exact Subrelation.wf hsub (InvImage.wf (fun m : Mutex => 4 - m.rank) Nat.lt_wfRel.wf)

abbrev Op := LockOp Mutex

/-! ## Functions that are called with mutexes held -/

/-- `put_echo_reference`: the reference is that of the device, and there is an active output. -/
def putEchoReference (devReference activeOutput : Bool) : List Op :=
  if devReference then
    -- `remove_echo_reference`
    if activeOutput then [.lock .outStream, .unlock .outStream] else []
  else []

/-- `get_echo_reference`; `created` is that the reference could be created. -/
def getEchoReference (devReference activeOutput created : Bool) : List Op :=
  putEchoReference devReference activeOutput ++
    -- `add_echo_reference`
    if activeOutput && created then [.lock .outStream, .unlock .outStream] else []

/-- The tests of `do_input_standby`. -/
structure StandbyPath where
  standby : Bool
  echoReference : Bool
  devReference : Bool
  activeOutput : Bool

def doInputStandby (x : StandbyPath) : List Op :=
  if x.standby then []
  else if x.echoReference then putEchoReference x.devReference x.activeOutput
  else []

/-- The tests of `start_input_stream` up to the echo reference; behind it no mutex is used. -/
structure StartPath where
  inCall : Bool
  needEchoReference : Bool
  devReference : Bool
  activeOutput : Bool
  created : Bool

def startInputStream (x : StartPath) : List Op :=
  if x.inCall then []
  else if x.needEchoReference then getEchoReference x.devReference x.activeOutput x.created
  else []

/-- The input is sent to standby. -/
def lockedInputStandby (x : StandbyPath) : List Op :=
  .lock .inStream :: (doInputStandby x ++ [.unlock .inStream])

/-- The tests of `force_all_standby`. -/
structure ForcePath where
  activeOutput : Bool
  activeInput : Bool
  standby : StandbyPath

def forceAllStandby (x : ForcePath) : List Op :=
  (if x.activeOutput then [.lock .outStream, .unlock .outStream] else []) ++
    if x.activeInput then lockedInputStandby x.standby else []

/-- The tests of `select_mode`: a mode of a call, `in_call`, and FM. -/
structure ModePath where
  callMode : Bool
  inCall : Bool
  fm : Bool
  first : ForcePath
  second : ForcePath

def selectMode (x : ModePath) : List Op :=
  (if x.callMode then if x.inCall then [] else forceAllStandby x.first
    else if x.inCall then forceAllStandby x.first else []) ++
    if x.fm then forceAllStandby x.second else []

/-- `WritePcmData` and `ReadPcmData`; a write returns early if there is no room. -/
def writePcmData (room : Bool) : List Op := if room then [.lock .ring, .unlock .ring] else []

def readPcmData : List Op := [.lock .ring, .unlock .ring]

/-! ## Entry points -/

def outStandby : List Op := [.lock .outStream, .unlock .outStream]

/-- The tests of `out_write`.  `startOk` is that `start_output_stream` returned 0, `voiceInput` that
the active input is for voice communication, `activeInput` that there is one at the end. -/
structure WritePath where
  blocked : Bool
  rawChanged : Bool
  rawFlag : Bool
  standby : Bool
  startOk : Bool
  voiceInput : Bool
  afCapture : Bool
  room : Bool
  activeInput : Bool
  inputStandby : StandbyPath

/-- `out_write` with the output locked; the device is released in the middle. -/
def writeLocked (x : WritePath) : List Op :=
  if x.standby && !x.startOk then [.unlock .adev, .unlock .outStream]
  else
    .unlock .adev :: ((if x.afCapture then writePcmData x.room else []) ++ [.unlock .outStream])

def outWrite (x : WritePath) : List Op :=
  if x.blocked then []
  else
    (if x.rawChanged then outStandby else []) ++
      if x.rawFlag then []
      else
        .lock .adev :: .lock .outStream :: writeLocked x ++
          -- `force_input_standby`
          if x.standby && x.startOk && x.voiceInput then
            .lock .adev ::
              ((if x.activeInput then lockedInputStandby x.inputStandby else []) ++ [.unlock .adev])
          else []

/-- The tests of `out_set_parameters`, by key. -/
structure OutParamsPath where
  routing : Bool
  firstSetAudioRouting : Bool
  /-- The device changes, the stream is the active one, and the active input is for voice. -/
  forceInputStandby : Bool
  inputStandby : StandbyPath
  devicesOutActive : Bool
  rawFlag : Bool
  rawDataOut : Bool

/-- The device and the output, around something that uses no mutex. -/
def lockedOutput : List Op := [.lock .adev, .lock .outStream, .unlock .outStream, .unlock .adev]

def outSetRouting (x : OutParamsPath) : List Op :=
  .lock .adev :: .lock .outStream :: .unlock .outStream ::
    ((if x.forceInputStandby then lockedInputStandby x.inputStandby else []) ++ [.unlock .adev])

def outSetParameters (x : OutParamsPath) : List Op :=
  if x.routing && x.firstSetAudioRouting then []
  else
    (if x.routing then outSetRouting x else []) ++
      if x.devicesOutActive && x.rawFlag then lockedOutput
      else
        (if x.devicesOutActive then lockedOutput else []) ++
          if x.rawDataOut then lockedOutput else []

/-- The tests of `in_read`. -/
structure ReadPath where
  inCall : Bool
  afMode : Bool
  standby : Bool
  start : StartPath

/-- `in_read`; the device is released before the stream. -/
def inRead (x : ReadPath) : List Op :=
  if x.inCall then []
  else if x.afMode then
    .lock .adev :: .lock .inStream :: .unlock .adev :: (readPcmData ++ [.unlock .inStream])
  else
    .lock .adev :: .lock .inStream ::
      ((if x.standby then startInputStream x.start else []) ++ [.unlock .adev, .unlock .inStream])

/-- The device and the input, around a standby if there is one. -/
def lockedInput (standby : Option StandbyPath) : List Op :=
  .lock .adev :: (.lock .inStream :: ((standby.elim [] doInputStandby) ++ [.unlock .inStream]) ++
    [.unlock .adev])

def inStandby (x : StandbyPath) : List Op := lockedInput (some x)

/-- `in_set_parameters`; one of three keys may ask for standby. -/
def inSetParameters (doStandby : Bool) (x : StandbyPath) : List Op :=
  lockedInput (if doStandby then some x else none)

/-- `in_add_audio_effect`; the array may be full, the descriptor may not be had, and only an AEC
asks for standby. -/
def inAddAudioEffect (full descriptorOk aec : Bool) (x : StandbyPath) : List Op :=
  lockedInput (if full then none else if descriptorOk then if aec then some x else none else none)

/-- `in_remove_audio_effect`. -/
def inRemoveAudioEffect (found descriptorOk aec : Bool) (x : StandbyPath) : List Op :=
  lockedInput (if found then if descriptorOk then if aec then some x else none else none else none)

/-- `adev_set_mode`. -/
def setMode (changes : Bool) (x : ModePath) : List Op :=
  .lock .adev :: ((if changes then selectMode x else []) ++ [.unlock .adev])

/-- `adev_set_parameters`; an unknown TTY mode is an error. -/
def setParameters (ttyMode known : Bool) : List Op :=
  if ttyMode && known then [.lock .adev, .unlock .adev] else []

def closeOutputStream (blocked : Bool) : List Op := if blocked then [] else outStandby

def closeInputStream (x : StandbyPath) : List Op := inStandby x

/-- The entry points with all their paths. -/
inductive Call
  | outWrite (x : WritePath)
  | outStandby
  | outSetParameters (x : OutParamsPath)
  | inRead (x : ReadPath)
  | inStandby (x : StandbyPath)
  | inSetParameters (doStandby : Bool) (x : StandbyPath)
  | inAddAudioEffect (full descriptorOk aec : Bool) (x : StandbyPath)
  | inRemoveAudioEffect (found descriptorOk aec : Bool) (x : StandbyPath)
  | setMode (changes : Bool) (x : ModePath)
  | setParameters (ttyMode known : Bool)
  | closeOutputStream (blocked : Bool)
  | closeInputStream (x : StandbyPath)

def Call.ops : Call → List Op
  | .outWrite x => Locks.outWrite x
  | .outStandby => Locks.outStandby
  | .outSetParameters x => Locks.outSetParameters x
  | .inRead x => Locks.inRead x
  | .inStandby x => Locks.inStandby x
  | .inSetParameters doStandby x => Locks.inSetParameters doStandby x
  | .inAddAudioEffect full descriptorOk aec x => Locks.inAddAudioEffect full descriptorOk aec x
  | .inRemoveAudioEffect found descriptorOk aec x =>
    Locks.inRemoveAudioEffect found descriptorOk aec x
  | .setMode changes x => Locks.setMode changes x
  | .setParameters ttyMode known => Locks.setParameters ttyMode known
  | .closeOutputStream blocked => Locks.closeOutputStream blocked
  | .closeInputStream x => Locks.closeInputStream x

/-! ## Order -/

/-- All mutexes that are held come before the out stream. -/
def BeforeOut (h : List Mutex) : Prop := ∀ k ∈ h, k < Mutex.outStream

variable {h : List Mutex}

lemma beforeOut_adev : BeforeOut [.adev] := by unfold BeforeOut; decide

lemma beforeOut_inStream_adev : BeforeOut [.inStream, .adev] := by unfold BeforeOut; decide

lemma neutral_putEchoReference (hh : BeforeOut h) (devReference activeOutput : Bool) :
    Neutral h (putEchoReference devReference activeOutput) :=
  .ite (fun _ => .ite (fun _ => .lockUnlock hh) fun _ => .nil) fun _ => .nil

lemma neutral_getEchoReference (hh : BeforeOut h) (devReference activeOutput created : Bool) :
    Neutral h (getEchoReference devReference activeOutput created) :=
  (neutral_putEchoReference hh devReference activeOutput).append
    (.ite (fun _ => .lockUnlock hh) fun _ => .nil)

lemma neutral_doInputStandby (hh : BeforeOut h) (x : StandbyPath) : Neutral h (doInputStandby x) :=
  .ite (fun _ => .nil) fun _ =>
    .ite (fun _ => neutral_putEchoReference hh x.devReference x.activeOutput) fun _ => .nil

lemma neutral_startInputStream (hh : BeforeOut h) (x : StartPath) :
    Neutral h (startInputStream x) :=
  .ite (fun _ => .nil) fun _ =>
    .ite (fun _ => neutral_getEchoReference hh x.devReference x.activeOutput x.created)
      fun _ => .nil

/-- The input is locked under the device. -/
lemma neutral_lockedInputStandby (x : StandbyPath) : Neutral [.adev] (lockedInputStandby x) :=
  Neutral.locked (by decide) (neutral_doInputStandby beforeOut_inStream_adev x)

lemma neutral_forceAllStandby (x : ForcePath) : Neutral [.adev] (forceAllStandby x) := by
  refine Neutral.append (.ite (fun _ => .lockUnlock beforeOut_adev) fun _ => .nil) ?_
  exact .ite (fun _ => neutral_lockedInputStandby x.standby) fun _ => .nil

lemma neutral_selectMode (x : ModePath) : Neutral [.adev] (selectMode x) := by
  have hfirst := neutral_forceAllStandby x.first
  refine Neutral.append ?_ (.ite (fun _ => neutral_forceAllStandby x.second) fun _ => .nil)
  refine .ite (fun _ => ?_) fun _ => ?_
  · exact .ite (fun _ => .nil) fun _ => hfirst
  · exact .ite (fun _ => hfirst) fun _ => .nil

lemma neutral_outStandby : Neutral [] outStandby := .lockUnlock nofun

lemma neutral_lockedOutput : Neutral [] lockedOutput := by
  have hout : Neutral [Mutex.adev] [.lock .outStream, .unlock .outStream] :=
    .lockUnlock beforeOut_adev
  exact hout.locked (h := []) fun k hk => absurd hk List.not_mem_nil

lemma neutral_writePcmData (room : Bool) : Neutral [.outStream] (writePcmData room) :=
  .ite (fun _ => .lockUnlock (by decide)) fun _ => .nil

/-- The device is released first, what comes behind is under the output alone. -/
lemma neutral_writeLocked (x : WritePath) :
    Neutral [] (.lock .adev :: .lock .outStream :: writeLocked x) := by
  have hout : Mutex.adev < Mutex.outStream := by decide
  unfold writeLocked
  split
  · exact Neutral.handOver hout .nil .nil
  · exact Neutral.handOver hout .nil
      (.ite (fun _ => neutral_writePcmData x.room) fun _ => .nil)

lemma neutral_outWrite (x : WritePath) : Neutral [] (outWrite x) := by
  refine .ite (fun _ => .nil) fun _ => ?_
  refine Neutral.append (.ite (fun _ => neutral_outStandby) fun _ => .nil) ?_
  refine .ite (fun _ => .nil) fun _ => (neutral_writeLocked x).append ?_
  refine .ite (fun _ => Neutral.locked nofun ?_) fun _ => .nil
  exact .ite (fun _ => neutral_lockedInputStandby x.inputStandby) fun _ => .nil

lemma neutral_outSetRouting (x : OutParamsPath) : Neutral [] (outSetRouting x) := by
  have hout : Neutral [Mutex.adev] [.lock .outStream, .unlock .outStream] :=
    .lockUnlock beforeOut_adev
  refine Neutral.locked nofun (hout.append ?_)
  exact .ite (fun _ => neutral_lockedInputStandby x.inputStandby) fun _ => .nil

lemma neutral_outSetParameters (x : OutParamsPath) : Neutral [] (outSetParameters x) := by
  have hlocked := neutral_lockedOutput
  refine .ite (fun _ => .nil) fun _ => ?_
  refine Neutral.append (.ite (fun _ => neutral_outSetRouting x) fun _ => .nil) ?_
  refine .ite (fun _ => hlocked) fun _ => ?_
  exact Neutral.append (.ite (fun _ => hlocked) fun _ => .nil)
    (.ite (fun _ => hlocked) fun _ => .nil)

lemma neutral_inRead (x : ReadPath) : Neutral [] (inRead x) := by
  have hin : Mutex.adev < Mutex.inStream := by decide
  refine .ite (fun _ => .nil) fun _ => .ite (fun _ => ?_) fun _ => ?_
  · exact Neutral.handOver hin .nil (.lockUnlock (by decide))
  · refine Neutral.handOver hin ?_ .nil
    exact .ite (fun _ => neutral_startInputStream beforeOut_inStream_adev x.start) fun _ => .nil

lemma neutral_lockedInput (standby : Option StandbyPath) : Neutral [] (lockedInput standby) := by
  refine Neutral.locked nofun (Neutral.locked (by decide) ?_)
  cases standby with
  | none => exact .nil
  | some x => exact neutral_doInputStandby beforeOut_inStream_adev x

/-- Every path of every entry point takes the mutexes in order, and ends with none. -/
lemma neutral_ops (c : Call) : Neutral [] c.ops := by
  cases c with
  | outWrite x => exact neutral_outWrite x
  | outStandby => exact neutral_outStandby
  | outSetParameters x => exact neutral_outSetParameters x
  | inRead x => exact neutral_inRead x
  | inStandby x => exact neutral_lockedInput _
  | inSetParameters doStandby x => exact neutral_lockedInput _
  | inAddAudioEffect full descriptorOk aec x => exact neutral_lockedInput _
  | inRemoveAudioEffect found descriptorOk aec x => exact neutral_lockedInput _
  | setMode changes x =>
    exact Neutral.locked nofun (.ite (fun _ => neutral_selectMode x) fun _ => .nil)
  | setParameters ttyMode known => exact .ite (fun _ => .lockUnlock nofun) fun _ => .nil
  | closeOutputStream blocked => exact .ite (fun _ => .nil) fun _ => neutral_outStandby
  | closeInputStream x => exact neutral_lockedInput _

/-- What the entry points do. -/
def Calls (ops : List Op) : Prop := ∃ c : Call, ops = c.ops

/-- **The order of the mutexes.**  On every path of every entry point the mutexes are taken in the
order of the note, none is taken twice, only held ones are released, and none is held at the end.
Any number of threads that make such calls does not deadlock, and while one is in a call, one in a
call can go on. -/
theorem lockOrder :
    (∀ c : Call, Disciplined c.ops) ∧
      ∀ {ι : Type} [DecidableEq ι] {w : Threads ι Mutex}, Threads.Reach Calls w →
        ¬ w.Deadlock ∧ ∀ i, w.todo i ≠ [] → ∃ j w', w.todo j ≠ [] ∧ Threads.Step Calls j w w' := by
  have hcalls : ∀ ops, Calls ops → Neutral [] ops := by
    rintro ops ⟨c, rfl⟩
    exact neutral_ops c
  refine ⟨fun c => (neutral_ops c).disciplined, fun hw => ⟨?_, fun i hi => ?_⟩⟩
  · exact Threads.not_deadlock_of_reach hcalls hw
  · exact Threads.exists_step_of_reach hcalls hw hi

/-- Two threads send the input to standby; one has the device, the other one waits for it. -/
theorem lockOrder_two_threads : ∃ w : Threads Bool Mutex,
    Threads.Reach Calls w ∧ w.Waits false true ∧ ¬ w.Deadlock := by
  let call : Call := .inStandby ⟨false, true, true, true⟩
  let w₁ : Threads Bool Mutex := ⟨Function.update Threads.idle.todo true call.ops, fun _ => none⟩
  have hfirst : Threads.Step Calls true Threads.idle w₁ := .call rfl ⟨call, rfl⟩
  let w₂ : Threads Bool Mutex :=
    ⟨Function.update w₁.todo true call.ops.tail, Function.update w₁.owner .adev (some true)⟩
  have hlock : Threads.Step Calls true w₁ w₂ := .lock rfl rfl
  have hsecond : Threads.Step Calls false w₂ _ := .call rfl ⟨call, rfl⟩
  have hreach : Threads.Reach Calls _ :=
    ((Relation.ReflTransGen.single ⟨true, hfirst⟩).tail ⟨true, hlock⟩).tail ⟨false, hsecond⟩
  exact ⟨_, hreach, ⟨.adev, _, rfl, rfl⟩, (lockOrder.2 hreach).1⟩

end Softwinner.Audio.Locks

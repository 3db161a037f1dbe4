import Mathlib.Data.Nat.Notation
import Mathlib.Tactic.SplitIfs
import Softwinner.Framework.Runs

/-!
# Phone voice and bluetooth voice

`plan_two_start_voice`, `plan_two_stop_voice`, the same for bluetooth, and `manage_voice_thread` of
`planTwo/manage.c`.  Phone voice and bluetooth voice share the streams of the modem, so that the
threads of one must have closed their streams before those of the other open them.

A stop stops the pcms of its threads and waits for their `voice_thread_exit_flag`.  A thread clears
the flag only when both its streams are open, and a start sets it.  A stop that reads the flag in
front of that returns while the thread has its streams, or has returned and left one open;
`exclusive_of_run` says that there is no other way.

One controller makes the calls.  A kind is started only when the other one is not running.  The
`dev` of a stream is NULL until `pcm_open` has been called for it, and a stop in front of that is a
crash: it is no step.  A `dev` that has been closed again is read behind its `free`; there the run
goes on, so that what may still happen is covered.
-/

namespace Softwinner.Audio.VoiceThreads

/-! ## State -/

inductive Kind
  | bp | bt
  deriving DecidableEq

def Kind.other : Kind → Kind
  | .bp => .bt
  | .bt => .bp

inductive Direction
  | up | down
  deriving DecidableEq

/-- The two ends of a `struct stream_transfer`. -/
inductive End
  | sender | receiver
  deriving DecidableEq

/-- `g_bp_send_stream` and the others. -/
inductive Stream
  | bpSend | bpReceive | btSend | btReceive | codecSend | codecReceive
  deriving DecidableEq

/-- `stream_sender` and `stream_receiver` of the voices, as `plan_two_init_voice` sets them. -/
def stream : Kind → Direction → End → Stream
  | .bt, .up, .sender => .btSend
  | .bt, .up, .receiver => .bpReceive
  | .bt, .down, .sender => .bpSend
  | .bt, .down, .receiver => .btReceive
  | .bp, .up, .sender => .codecSend
  | .bp, .up, .receiver => .bpReceive
  | .bp, .down, .sender => .bpSend
  | .bp, .down, .receiver => .codecReceive

/-- What an `init_stream` comes to. -/
inductive Opening
  | ready
  /-- There is no node for the device, so that `pcm_open` is not called. -/
  | noNode
  /-- `pcm_open` or the allocation behind it has failed. -/
  | failed
  deriving DecidableEq

/-- Where a `manage_voice_thread` is; all but the first are in its loop behind `sem_wait`. -/
inductive Pc
  | semWait
  | testRun
  | initReceiver
  | initSender
  | clearExit
  /-- In `stream_transfer`, which tests the run flag again and again. -/
  | transfer
  | closeReceiver
  | closeSender
  | setExit
  /-- The receiver could not be opened, and the thread has returned. -/
  | returned
  /-- The sender could not be opened, and the thread has returned without closing the receiver. -/
  | returnedOpen
  deriving DecidableEq

/-- The thread is between its first `init_stream` and its last `close_stream`. -/
def Pc.between : Pc → Bool
  | .initSender | .clearExit | .transfer | .closeReceiver | .closeSender | .returnedOpen => true
  | _ => false

/-- The thread has seen the run flag and not cleared the exit flag, and may have streams. -/
def Pc.opening : Pc → Bool
  | .initReceiver | .initSender | .clearExit | .returnedOpen => true
  | _ => false

/-- The thread has cleared the exit flag, and its streams are open. -/
def Pc.inUse : Pc → Bool
  | .transfer | .closeReceiver | .closeSender => true
  | _ => false

/-- `struct stream_transfer`: the two flags, the semaphore and the thread. -/
structure Voice where
  run : Bool
  exit : Bool
  sem : ℕ
  pc : Pc
  deriving DecidableEq

/-- Where the controller is: in front of an access to the voice of this direction. -/
inductive Ctrl
  | idle
  | startRun (k : Kind) (d : Direction)
  | startExit (k : Kind) (d : Direction)
  | startWait (k : Kind) (d : Direction)
  | startPost (k : Kind) (d : Direction)
  | stopRun (k : Kind) (d : Direction)
  /-- In front of the `pcm_stop` of this stream of the voice. -/
  | stopPcm (k : Kind) (d : Direction) (e : End)
  | stopWait (k : Kind) (d : Direction)
  /-- A stop returns. -/
  | stopped (k : Kind)
  deriving DecidableEq

structure State where
  voice : Kind → Direction → Voice
  /-- `pcm_open` has been called, so that `dev` is not NULL. -/
  hasDev : Stream → Bool
  ctrl : Ctrl
  /-- The kind that has been started and not been stopped. -/
  running : Option Kind

/-- `plan_two_init_voice`. -/
def init : State := ⟨fun _ _ => ⟨false, true, 0, .semWait⟩, fun _ => false, .idle, none⟩

/-! ## Steps -/

/-- A step of `manage_voice_thread`; `o` is what an `init_stream` comes to. -/
def Voice.step (v : Voice) (o : Opening) : Option Voice :=
  match v.pc with
  | .semWait => if 0 < v.sem then some { v with sem := v.sem - 1, pc := .testRun } else none
  | .testRun => some { v with pc := if v.run then .initReceiver else .semWait }
  | .initReceiver => some { v with pc := if o = .ready then .initSender else .returned }
  | .initSender => some { v with pc := if o = .ready then .clearExit else .returnedOpen }
  | .clearExit => some { v with exit := false, pc := .transfer }
  | .transfer => some { v with pc := if v.run then .transfer else .closeReceiver }
  | .closeReceiver => some { v with pc := .closeSender }
  | .closeSender => some { v with pc := .setExit }
  | .setExit => some { v with exit := true, pc := .semWait }
  | .returned | .returnedOpen => none

/-- The stream that a thread is in front of opening. -/
def Pc.end? : Pc → Option End
  | .initReceiver => some .receiver
  | .initSender => some .sender
  | _ => none

/-- Behind the `pcm_stop` of a stream. -/
def Ctrl.afterPcm (k : Kind) : Direction → End → Ctrl
  | .up, .sender => .stopPcm k .up .receiver
  | .up, .receiver => .stopPcm k .down .sender
  | .down, .sender => .stopPcm k .down .receiver
  | .down, .receiver => .stopWait k .down

namespace State

variable (s : State)

def setVoice (k : Kind) (d : Direction) (v : Voice) (ctrl : Ctrl) : State :=
  { s with voice := fun k' d' => if k' = k ∧ d' = d then v else s.voice k' d', ctrl := ctrl }

/-- `init_stream` and `dev`, for the step of a thread. -/
def openDev (k : Kind) (d : Direction) (o : Opening) (st : Stream) : Bool :=
  s.hasDev st || decide (o ≠ .noNode ∧ (s.voice k d).pc.end?.map (stream k d) = some st)

/-- The controller's next access. -/
def ctrlStep : Option State :=
  match s.ctrl with
  | .idle => none
  | .startRun k .up =>
    some (s.setVoice k .up { s.voice k .up with run := true } (.startRun k .down))
  | .startRun k .down =>
    some (s.setVoice k .down { s.voice k .down with run := true } (.startExit k .up))
  | .startExit k .up =>
    some (s.setVoice k .up { s.voice k .up with exit := true } (.startExit k .down))
  | .startExit k .down =>
    some (s.setVoice k .down { s.voice k .down with exit := true } (.startWait k .down))
  | .startWait k .down =>
    some { s with
      ctrl := if (s.voice k.other .down).exit then .startWait k .up else .startWait k .down }
  | .startWait k .up =>
    some { s with
      ctrl := if (s.voice k.other .up).exit then .startPost k .down else .startWait k .down }
  | .startPost k .down =>
    some (s.setVoice k .down { s.voice k .down with sem := (s.voice k .down).sem + 1 }
      (.startPost k .up))
  | .startPost k .up =>
    some (s.setVoice k .up { s.voice k .up with sem := (s.voice k .up).sem + 1 } .idle)
  | .stopRun k .up =>
    some (s.setVoice k .up { s.voice k .up with run := false } (.stopRun k .down))
  | .stopRun k .down =>
    some (s.setVoice k .down { s.voice k .down with run := false } (.stopPcm k .up .sender))
  | .stopPcm k d e =>
    if s.hasDev (stream k d e) then some { s with ctrl := .afterPcm k d e } else none
  | .stopWait k .down =>
    some { s with ctrl := if (s.voice k .down).exit then .stopWait k .up else .stopWait k .down }
  | .stopWait k .up =>
    some { s with ctrl := if (s.voice k .up).exit then .stopped k else .stopWait k .down }
  | .stopped k =>
    some { s with ctrl := .idle, running := if s.running = some k then none else s.running }

end State

inductive Act
  | start (k : Kind)
  | stop (k : Kind)
  | ctrl
  | thread (k : Kind) (d : Direction) (o : Opening)
  deriving DecidableEq

def State.step (s : State) : Act → Option State
  | .start k =>
    if s.ctrl = .idle ∧ s.running ≠ some k.other then
      some { s with ctrl := .startRun k .up, running := some k }
    else none
  | .stop k => if s.ctrl = .idle then some { s with ctrl := .stopRun k .up } else none
  | .ctrl => s.ctrlStep
  | .thread k d o => ((s.voice k d).step o).map fun v =>
    { s.setVoice k d v s.ctrl with hasDev := s.openDev k d o }

/-! ## The property, and the condition -/

/-- A phone voice thread and a bluetooth voice thread do not have streams at the same time. -/
def Exclusive (s : State) : Prop :=
  ∀ d d', ¬ ((s.voice .bp d).pc.between = true ∧ (s.voice .bt d').pc.between = true)

/-- When a stop returns, its threads have closed their streams. -/
def StopDone (s : State) : Prop :=
  ∀ k, s.ctrl = .stopped k → ∀ d, (s.voice k d).pc.between = false

/-- A stop does not read the exit flag of a thread that is opening its streams or has returned
with one of them, and a start does not set the exit flag of a thread that is using them. -/
def Ctrl.flagRight : Ctrl → (Kind → Direction → Voice) → Bool
  | .stopWait k d, voice => !(voice k d).pc.opening
  | .startExit k d, voice => !(voice k d).pc.inUse
  | _, _ => true

def FlagsRight (a : Act) (s : State) : Prop := a = .ctrl → s.ctrl.flagRight s.voice = true

instance (a : Act) (s : State) : Decidable (FlagsRight a s) := inferInstanceAs (Decidable (_ → _))

/-! ## The invariant -/

/-- A thread that uses its streams has its exit flag cleared. -/
def Voice.FlagOk (v : Voice) : Prop := v.pc.inUse = true → v.exit = false

/-- The thread has no streams. -/
def Voice.Closed (v : Voice) : Prop := v.pc.opening = false ∧ v.pc.inUse = false

/-- The thread has no streams and will not open any. -/
def Voice.Quiet (v : Voice) : Prop := v.run = false ∧ v.Closed

/-- What a stop knows about a thread on its way. -/
inductive Level
  | nothing | stopped | quiet

def Level.Holds : Level → Voice → Prop
  | .nothing, _ => True
  | .stopped, v => v.run = false
  | .quiet, v => v.Quiet

/-- The flags are written for the upstream thread first, and read for the downstream one first. -/
def Ctrl.level : Ctrl → Direction → Level
  | .stopRun _ .down, .up => .stopped
  | .stopPcm _ _ _, _ => .stopped
  | .stopWait _ .down, _ => .stopped
  | .stopWait _ .up, .up => .stopped
  | .stopWait _ .up, .down => .quiet
  | .stopped _, _ => .quiet
  | _, _ => .nothing

def Ctrl.stopping : Ctrl → Option Kind
  | .stopRun k _ | .stopPcm k _ _ | .stopWait k _ | .stopped k => some k
  | _ => none

def Ctrl.starting : Ctrl → Option Kind
  | .startRun k _ | .startExit k _ | .startWait k _ | .startPost k _ => some k
  | _ => none

structure Inv (s : State) : Prop where
  flag : ∀ k d, (s.voice k d).FlagOk
  quiet : ∀ k, s.running ≠ some k → ∀ d, (s.voice k d).Quiet
  starting : ∀ k, s.ctrl.starting = some k → s.running = some k
  stopping : ∀ k, s.ctrl.stopping = some k → ∀ d, (s.ctrl.level d).Holds (s.voice k d)

variable {s s' : State} {a : Act} {k : Kind} {d : Direction} {v v' : Voice}

lemma Voice.Closed.not_between (hv : v.Closed) : v.pc.between = false := by
  obtain ⟨hopening, hinUse⟩ := hv
  revert hopening hinUse
  cases v.pc <;> decide

lemma Inv.exclusive (hs : Inv s) : Exclusive s := by
  rintro d d' ⟨hbp, hbt⟩
  -- one of the kinds is not the running one
  by_cases hrunning : s.running = some .bp
  · have hnot : s.running ≠ some .bt := by
      rw [hrunning]
      exact nofun
    exact nomatch (hs.quiet .bt hnot d').2.not_between.symm.trans hbt
  · exact nomatch (hs.quiet .bp hrunning d).2.not_between.symm.trans hbp

lemma Inv.stopDone (hs : Inv s) : StopDone s := by
  intro k hctrl d
  have hquiet := hs.stopping k (by rw [hctrl]; rfl) d
  rw [hctrl] at hquiet
  exact hquiet.2.not_between

/-! ## Steps of the threads -/

lemma Voice.FlagOk.of_not_inUse (h : v.pc.inUse = false) : v.FlagOk :=
  fun h' => absurd (h.symm.trans h') Bool.false_ne_true

lemma Voice.Quiet.of_opening (hv : v.Quiet) (h : v.pc.opening = true) {p : Prop} : p :=
  absurd (hv.2.1.symm.trans h) Bool.false_ne_true

lemma Voice.Quiet.of_inUse (hv : v.Quiet) (h : v.pc.inUse = true) {p : Prop} : p :=
  absurd (hv.2.2.symm.trans h) Bool.false_ne_true

/-- What a step of a thread keeps. -/
structure Voice.Keeps (v v' : Voice) : Prop where
  run : v'.run = v.run
  flag : v.FlagOk → v'.FlagOk
  quiet : v.Quiet → v'.Quiet

lemma Voice.Keeps.refl (v : Voice) : v.Keeps v := ⟨rfl, id, id⟩

lemma Voice.Keeps.holds {l : Level} (h : v.Keeps v') (hl : l.Holds v) : l.Holds v' := by
  cases l with
  | nothing => trivial
  | stopped => exact h.run.trans hl
  | quiet => exact h.quiet hl

lemma Voice.step_keeps {o : Opening} (hstep : v.step o = some v') : v.Keeps v' := by
  obtain ⟨run, exit, sem, pc⟩ := v
  cases pc with
  | semWait =>
    simp only [Voice.step] at hstep
    split_ifs at hstep
    obtain rfl := Option.some.inj hstep
    exact ⟨rfl, fun _ => .of_not_inUse rfl, fun h => ⟨h.1, rfl, rfl⟩⟩
  | testRun =>
    obtain rfl := Option.some.inj hstep
    cases run with
    | true => exact ⟨rfl, fun _ => .of_not_inUse rfl, fun h => absurd h.1.symm Bool.false_ne_true⟩
    | false => exact ⟨rfl, fun _ => .of_not_inUse rfl, fun _ => ⟨rfl, rfl, rfl⟩⟩
  | initReceiver =>
    obtain rfl := Option.some.inj hstep
    exact ⟨rfl, fun _ => .of_not_inUse (by cases o <;> rfl),
      fun h => h.of_opening rfl⟩
  | initSender =>
    obtain rfl := Option.some.inj hstep
    exact ⟨rfl, fun _ => .of_not_inUse (by cases o <;> rfl),
      fun h => h.of_opening rfl⟩
  | clearExit =>
    obtain rfl := Option.some.inj hstep
    exact ⟨rfl, fun _ _ => rfl, fun h => h.of_opening rfl⟩
  | transfer =>
    obtain rfl := Option.some.inj hstep
    exact ⟨rfl, fun h _ => h rfl, fun h => h.of_inUse rfl⟩
  | closeReceiver =>
    obtain rfl := Option.some.inj hstep
    exact ⟨rfl, fun h _ => h rfl, fun h => h.of_inUse rfl⟩
  | closeSender =>
    obtain rfl := Option.some.inj hstep
    exact ⟨rfl, fun _ => .of_not_inUse rfl, fun h => h.of_inUse rfl⟩
  | setExit =>
    obtain rfl := Option.some.inj hstep
    exact ⟨rfl, fun _ => .of_not_inUse rfl, fun h => ⟨h.1, rfl, rfl⟩⟩
  | returned | returnedOpen => cases hstep

/-- One voice is changed. -/
lemma forall_setVoice {p : Kind → Direction → Voice → Voice → Prop} {ctrl : Ctrl}
    (hnew : p k d (s.voice k d) v) (hold : ∀ k' d', p k' d' (s.voice k' d') (s.voice k' d'))
    (k' : Kind) (d' : Direction) :
    p k' d' (s.voice k' d') ((s.setVoice k d v ctrl).voice k' d') := by
  simp only [State.setVoice]
  split_ifs with heq
  · obtain ⟨rfl, rfl⟩ := heq
    exact hnew
  · exact hold k' d'

/-- A step that keeps what is known about all threads, of a controller that stays where it is. -/
lemma Inv.of_keeps (hs : Inv s) (hkeeps : ∀ k d, (s.voice k d).Keeps (s'.voice k d))
    (hctrl : s'.ctrl = s.ctrl) (hrunning : s'.running = s.running) : Inv s' := by
  refine ⟨fun k d => (hkeeps k d).flag (hs.flag k d), fun k hk d => ?_, ?_, ?_⟩
  · rw [hrunning] at hk
    exact (hkeeps k d).quiet (hs.quiet k hk d)
  · rw [hctrl, hrunning]
    exact hs.starting
  · rw [hctrl]
    exact fun k hk d => (hkeeps k d).holds (hs.stopping k hk d)

lemma Inv.thread (hs : Inv s) {o : Opening} (hstep : s.step (.thread k d o) = some s') :
    Inv s' := by
  obtain ⟨v, hv, rfl⟩ := Option.map_eq_some_iff.mp hstep
  have hkeeps : ∀ k' d', (s.voice k' d').Keeps ((s.setVoice k d v s.ctrl).voice k' d') :=
    forall_setVoice (p := fun _ _ v v' => v.Keeps v') (Voice.step_keeps hv)
      fun _ _ => Voice.Keeps.refl _
  exact hs.of_keeps hkeeps rfl rfl

/-! ## Steps of the controller -/

@[simp] lemma voice_setVoice_self {ctrl : Ctrl} : (s.setVoice k d v ctrl).voice k d = v :=
  if_pos ⟨rfl, rfl⟩

lemma voice_setVoice_of_ne {ctrl : Ctrl} {d' : Direction} (hne : d' ≠ d) :
    (s.setVoice k d v ctrl).voice k d' = s.voice k d' :=
  if_neg fun h => hne h.2

/-- The controller changes one voice and goes on. -/
lemma Inv.setVoice (hs : Inv s) {ctrl : Ctrl} (hflag : v.FlagOk)
    (hquiet : s.running ≠ some k → v.Quiet)
    (hstarting : ∀ k', ctrl.starting = some k' → s.running = some k')
    (hstopping : ∀ k', ctrl.stopping = some k' → ∀ d',
      (ctrl.level d').Holds ((s.setVoice k d v ctrl).voice k' d')) :
    Inv (s.setVoice k d v ctrl) := by
  refine ⟨?_, fun k' hk' d' => ?_, hstarting, hstopping⟩
  · exact forall_setVoice (p := fun _ _ _ v' => v'.FlagOk) hflag hs.flag
  · exact forall_setVoice (p := fun k' _ _ v' => s.running ≠ some k' → v'.Quiet) hquiet
      (fun k' d' hk' => hs.quiet k' hk' d') k' d' hk'

/-- A start writes to the voices of its kind only. -/
lemma Inv.startStep (hs : Inv s) {ctrl : Ctrl} (hk : s.ctrl.starting = some k) (hflag : v.FlagOk)
    (hctrl : ctrl.starting = some k ∨ ctrl = .idle) : Inv (s.setVoice k d v ctrl) := by
  have hrunning := hs.starting k hk
  refine hs.setVoice hflag (fun hne => absurd hrunning hne) (fun k' hk' => ?_) fun k' hk' => ?_
  · rcases hctrl with h | rfl
    · obtain rfl := Option.some.inj (h.symm.trans hk')
      exact hrunning
    · cases hk'
  · exfalso
    rcases hctrl with h | rfl
    · revert h hk'
      cases ctrl <;> exact nofun
    · cases hk'

/-- A thread whose exit flag is read as set is closed, if it is not opening its streams. -/
lemma Voice.FlagOk.closed (hflag : v.FlagOk) (hexit : v.exit = true)
    (hopening : v.pc.opening = false) : v.Closed := by
  refine ⟨hopening, Bool.eq_false_iff.mpr fun hinUse => ?_⟩
  exact nomatch hexit.symm.trans (hflag hinUse)

/-- The controller goes on without a write. -/
lemma Inv.withCtrl (hs : Inv s) {ctrl : Ctrl}
    (hstarting : ∀ k, ctrl.starting = some k → s.running = some k)
    (hstopping : ∀ k, ctrl.stopping = some k → ∀ d, (ctrl.level d).Holds (s.voice k d)) :
    Inv { s with ctrl := ctrl } :=
  ⟨hs.flag, hs.quiet, hstarting, hstopping⟩

/-- A controller in a stop is not in a start. -/
lemma Ctrl.starting_ne_of_stopping {ctrl : Ctrl} {k' : Kind} (hctrl : ctrl.stopping = some k) :
    ctrl.starting ≠ some k' := by
  cases ctrl with
  | idle | startRun | startExit | startWait | startPost => cases hctrl
  | stopRun | stopPcm | stopWait | stopped => exact nofun

lemma Inv.startWait (hs : Inv s) (hk : s.ctrl.starting = some k) {ctrl : Ctrl}
    (hctrl : ctrl.starting = some k) : Inv { s with ctrl := ctrl } := by
  refine hs.withCtrl (fun k' hk' => ?_) fun k' hk' => ?_
  · obtain rfl := Option.some.inj (hctrl.symm.trans hk')
    exact hs.starting k hk
  · exact absurd hctrl (Ctrl.starting_ne_of_stopping hk')

/-- A stop clears a run flag. -/
lemma Inv.stopRun (hs : Inv s) {ctrl : Ctrl} (hctrl : ctrl.stopping = some k)
    (hup : (ctrl.level .up).Holds
      ((s.setVoice k d { s.voice k d with run := false } ctrl).voice k .up))
    (hdown : (ctrl.level .down).Holds
      ((s.setVoice k d { s.voice k d with run := false } ctrl).voice k .down)) :
    Inv (s.setVoice k d { s.voice k d with run := false } ctrl) := by
  refine hs.setVoice (hs.flag k d) (fun hne => ⟨rfl, (hs.quiet k hne d).2⟩) (fun k' hk' => ?_)
    fun k' hk' d' => ?_
  · exact absurd hk' (Ctrl.starting_ne_of_stopping hctrl)
  · obtain rfl := Option.some.inj (hctrl.symm.trans hk')
    cases d' with
    | up => exact hup
    | down => exact hdown

/-- A stop goes on without a write. -/
lemma Inv.stopWait (hs : Inv s) {ctrl : Ctrl} (hctrl : ctrl.stopping = some k)
    (hup : (ctrl.level .up).Holds (s.voice k .up))
    (hdown : (ctrl.level .down).Holds (s.voice k .down)) : Inv { s with ctrl := ctrl } := by
  refine hs.withCtrl (fun k' hk' => ?_) fun k' hk' d' => ?_
  · exact absurd hk' (Ctrl.starting_ne_of_stopping hctrl)
  · obtain rfl := Option.some.inj (hctrl.symm.trans hk')
    cases d' with
    | up => exact hup
    | down => exact hdown

/-- A stop returns. -/
lemma Inv.stopped (hs : Inv s) (hquiet : ∀ d, (s.voice k d).Quiet) :
    Inv { s with ctrl := .idle, running := if s.running = some k then none else s.running } := by
  refine ⟨hs.flag, fun k' hk' d => ?_, nofun, nofun⟩
  by_cases hne : k' = k
  · rw [hne]
    exact hquiet d
  · refine hs.quiet k' (fun hrunning => ?_) d
    have hother : s.running ≠ some k := by
      rw [hrunning]
      exact fun h => hne (Option.some.inj h)
    exact hk' ((if_neg hother).trans hrunning)

lemma Inv.ctrlStep (hs : Inv s) (hok : FlagsRight .ctrl s) (hstep : s.ctrlStep = some s') :
    Inv s' := by
  have hflag := hs.flag
  replace hok := hok rfl
  unfold State.ctrlStep at hstep
  cases hctrl : s.ctrl with
  | idle =>
    rw [hctrl] at hstep
    cases hstep
  | startRun k d =>
    rw [hctrl] at hstep
    have hk : s.ctrl.starting = some k := by rw [hctrl]; rfl
    cases d with
    | up =>
      obtain rfl := Option.some.inj hstep
      exact hs.startStep hk (hflag k .up) (.inl rfl)
    | down =>
      obtain rfl := Option.some.inj hstep
      exact hs.startStep hk (hflag k .down) (.inl rfl)
  | startExit k d =>
    rw [hctrl] at hstep hok
    have hnot : (s.voice k d).pc.inUse = false := Bool.not_eq_true' _ ▸ hok
    have hk : s.ctrl.starting = some k := by rw [hctrl]; rfl
    cases d with
    | up =>
      obtain rfl := Option.some.inj hstep
      exact hs.startStep hk (.of_not_inUse hnot) (.inl rfl)
    | down =>
      obtain rfl := Option.some.inj hstep
      exact hs.startStep hk (.of_not_inUse hnot) (.inl rfl)
  | startWait k d =>
    rw [hctrl] at hstep
    have hk : s.ctrl.starting = some k := by rw [hctrl]; rfl
    cases d with
    | up =>
      obtain rfl := Option.some.inj hstep
      exact hs.startWait hk (by split_ifs <;> rfl)
    | down =>
      obtain rfl := Option.some.inj hstep
      exact hs.startWait hk (by split_ifs <;> rfl)
  | startPost k d =>
    rw [hctrl] at hstep
    have hk : s.ctrl.starting = some k := by rw [hctrl]; rfl
    cases d with
    | up =>
      obtain rfl := Option.some.inj hstep
      exact hs.startStep hk (hflag k .up) (.inr rfl)
    | down =>
      obtain rfl := Option.some.inj hstep
      exact hs.startStep hk (hflag k .down) (.inl rfl)
  | stopRun k d =>
    have hlevel := hs.stopping k (by rw [hctrl]; rfl)
    rw [hctrl] at hstep hlevel
    cases d with
    | up =>
      obtain rfl := Option.some.inj hstep
      refine hs.stopRun rfl ?_ trivial
      rw [voice_setVoice_self]
      rfl
    | down =>
      obtain rfl := Option.some.inj hstep
      refine hs.stopRun rfl ?_ ?_
      · rw [voice_setVoice_of_ne (by decide : Direction.up ≠ .down)]
        exact hlevel .up
      · rw [voice_setVoice_self]
        rfl
  | stopPcm k d e =>
    have hlevel := hs.stopping k (by rw [hctrl]; rfl)
    rw [hctrl] at hstep hlevel
    simp only at hstep
    split_ifs at hstep
    obtain rfl := Option.some.inj hstep
    cases d <;> cases e <;> exact hs.stopWait rfl (hlevel .up) (hlevel .down)
  | stopWait k d =>
    have hlevel := hs.stopping k (by rw [hctrl]; rfl)
    rw [hctrl] at hstep hok hlevel
    have hnot : (s.voice k d).pc.opening = false := Bool.not_eq_true' _ ▸ hok
    cases d with
    | up =>
      obtain rfl := Option.some.inj hstep
      split_ifs with hexit
      · exact hs.stopWait rfl ⟨hlevel .up, (hflag k .up).closed hexit hnot⟩ (hlevel .down)
      · exact hs.stopWait rfl (hlevel .up) (hlevel .down).1
    | down =>
      obtain rfl := Option.some.inj hstep
      split_ifs with hexit
      · exact hs.stopWait rfl (hlevel .up) ⟨hlevel .down, (hflag k .down).closed hexit hnot⟩
      · exact hs.stopWait rfl (hlevel .up) (hlevel .down)
  | stopped k =>
    have hlevel := hs.stopping k (by rw [hctrl]; rfl)
    rw [hctrl] at hstep hlevel
    obtain rfl := Option.some.inj hstep
    exact hs.stopped hlevel

/-! ## Runs -/

/-- A step under the condition keeps the invariant. -/
lemma Inv.step (hs : Inv s) (hok : FlagsRight a s) (hstep : s.step a = some s') : Inv s' := by
  cases a with
  | start k =>
    simp only [State.step] at hstep
    split_ifs at hstep with hidle
    obtain rfl := Option.some.inj hstep
    refine ⟨hs.flag, fun k' hk' d => ?_, fun k' hk' => hk', nofun⟩
    -- the other kind is not running
    refine hs.quiet k' (fun hrunning => hidle.2 ?_) d
    rw [hrunning]
    cases k <;> cases k' <;> first | rfl | exact absurd rfl hk'
  | stop k =>
    simp only [State.step] at hstep
    split_ifs at hstep
    obtain rfl := Option.some.inj hstep
    exact hs.stopWait rfl trivial trivial
  | ctrl => exact hs.ctrlStep hok hstep
  | thread k d ok => exact hs.thread hstep

lemma inv_init : Inv init :=
  ⟨fun _ _ => .of_not_inUse rfl, fun _ _ _ => ⟨rfl, rfl, rfl⟩, nofun, nofun⟩

/-- **Exclusive use of the modem.**  In every run in which no stop reads the exit flag of a thread
that is opening its streams or has returned with one of them, and no start sets that of a thread
that is using them, phone voice and bluetooth voice do not have streams at the same time, and the
threads of a stop that returns have closed theirs. -/
theorem exclusive_of_run (hrun : Framework.Runs State.step FlagsRight init s) :
    Exclusive s ∧ StopDone s := by
  have hinv : Inv s :=
    Framework.Runs.invariant (fun hs hok hstep => hs.step hok hstep) inv_init hrun
  exact ⟨hinv.exclusive, hinv.stopDone⟩

/-- A start that does not have to wait. -/
def startActs (k : Kind) : List Act := .start k :: List.replicate 8 .ctrl

/-- A thread makes steps, and its streams can be opened. -/
def threadActs (k : Kind) (d : Direction) (n : ℕ) : List Act :=
  List.replicate n (.thread k d .ready)

/-- A stop, up to the wait for its threads. -/
def stopActs (k : Kind) : List Act := .stop k :: List.replicate 6 .ctrl

/-- A call: both threads open their streams, and close them while the stop waits. -/
def callActs : List Act :=
  startActs .bp ++ threadActs .bp .up 5 ++ threadActs .bp .down 5 ++ stopActs .bp ++
    threadActs .bp .up 4 ++ threadActs .bp .down 4 ++ [.ctrl, .ctrl]

theorem exclusive_of_run_call : ∃ s, Framework.Runs State.step FlagsRight init s ∧
    s.ctrl = .stopped .bp ∧ Exclusive s ∧ StopDone s := by
  obtain ⟨s, hrun, hctrl⟩ := Framework.exists_runs State.step FlagsRight
    (fun s => s.ctrl = .stopped .bp) (s := init) callActs (by decide +kernel)
  exact ⟨s, hrun, hctrl, exclusive_of_run hrun⟩

/-- A stop while both threads have their streams open and have not cleared their exit flags. -/
def earlyStopActs : List Act :=
  startActs .bp ++ threadActs .bp .up 4 ++ threadActs .bp .down 4 ++ stopActs .bp ++ [.ctrl, .ctrl]

/-- The stop returns while the threads have their streams, and then a bluetooth voice thread opens
one.  The stream that it opens next is the one of the modem that a phone voice thread has open. -/
theorem stop_returns_early :
    (∃ s, Framework.Runs State.step (fun _ _ => True) init s ∧ ¬ StopDone s) ∧
      ∃ s, Framework.Runs State.step (fun _ _ => True) init s ∧ ¬ Exclusive s := by
  constructor
  · obtain ⟨s, hrun, hctrl, hpc⟩ := Framework.exists_runs State.step (fun _ _ => True)
      (fun s => s.ctrl = .stopped .bp ∧ (s.voice .bp .up).pc.between = true) (s := init)
      earlyStopActs (by decide +kernel)
    refine ⟨s, hrun, fun hdone => ?_⟩
    exact nomatch hpc.symm.trans (hdone .bp hctrl .up)
  · obtain ⟨s, hrun, hboth⟩ := Framework.exists_runs State.step (fun _ _ => True)
      (fun s => (s.voice .bp .down).pc.between = true ∧ (s.voice .bt .down).pc.between = true)
      (s := init) (earlyStopActs ++ .ctrl :: startActs .bt ++ threadActs .bt .down 3)
      (by decide +kernel)
    exact ⟨s, hrun, fun hexclusive => hexclusive .down .down hboth⟩

end Softwinner.Audio.VoiceThreads

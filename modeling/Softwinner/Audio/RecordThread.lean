import Mathlib.Tactic.SplitIfs
import Softwinner.Framework.Ledger
import Softwinner.Framework.Runs

/-!
# The recorder thread

`start_record`, `stop_record`, `record_manage_thread` and `record_data` of `record.c`.  A start
posts a semaphore on which the thread sleeps; a stop clears the run flag and waits for
`is_record_exit`.

A stop that clears the run flag before the thread has read it waits for ever.  The buffer of a
session survives in `g_record.buf`, so that a start without a buffer uses and frees it again; and a
failed `init_stream` sets the exit flag before the session is over, which makes it rise once more
behind the next start.  `right_of_run` says that there is no other way to go wrong.

One controller calls start and stop alternately, with calls of `set_record_source` in between.  The
thread is not asked to exit.
-/

namespace Softwinner.Audio.RecordThread

open Framework (Ledger)

/-! ## State -/

/-- Where the controller is; `stopped` and `started` are between the calls. -/
inductive CtrlPc
  | stopped
  | startMalloc (size : ℕ)
  | startRun
  | startOpened
  | startExit
  | startPost
  | started
  | stopRun
  /-- In front of the `pcm_stop`. -/
  | stopTestAdc
  | stopWait
  | stopFree
  | stopSize
  | stopSource
  | stopOpened
  deriving DecidableEq

/-- The controller is between the allocation of the buffer and its release. -/
def CtrlPc.holding : CtrlPc → Bool
  | .startRun | .startOpened | .startExit | .startPost | .started | .stopRun | .stopTestAdc
  | .stopWait | .stopFree => true
  | _ => false

/-- Where `record_manage_thread` is.  `failed` is the `exit_flag` of `record_data`, and `buf` what
has been read from `g_record.buf`. -/
inductive ManagerPc
  | semWait
  | testRun
  | clearExit
  | testAdc
  | testOpened
  | initStream
  | failExit
  | setOpened (failed : Bool)
  | pcmRead (failed : Bool)
  | testClose
  | closeStream
  | loadBuf
  /-- In `record_read_pcm_buf`. -/
  | readPcmBuf (buf : Option ℕ)
  | wavSave (buf : Option ℕ)
  | testLoop (failed : Bool)
  | testEnd
  | closeEnd
  | setExit
  deriving DecidableEq

/-- The thread has seen the run flag, and not set the exit flag at the end. -/
def ManagerPc.inSession : ManagerPc → Bool
  | .semWait | .testRun => false
  | _ => true

/-- The thread will not access the buffer before it sees the run flag again. -/
def ManagerPc.away : ManagerPc → Bool
  | .semWait | .testRun | .failExit | .testEnd | .closeEnd | .setExit => true
  | .setOpened failed | .pcmRead failed | .testLoop failed => failed
  | _ => false

/-- What the thread has in its hands of the buffer. -/
def ManagerPc.buf : ManagerPc → Option ℕ
  | .readPcmBuf buf | .wavSave buf => buf
  | _ => none

/-- `struct record_private`; a buffer is its number in the ledger. -/
structure State where
  run : Bool
  fromAdc : Bool
  exit : Bool
  opened : Bool
  buf : Option ℕ
  bufSize : ℕ
  sem : ℕ
  ctrl : CtrlPc
  manager : ManagerPc
  ledger : Ledger

/-- `init_record`. -/
def init : State := ⟨false, false, false, false, none, 0, 0, .stopped, .semWait, .empty⟩

/-! ## Steps -/

namespace State

variable (s : State)

/-- `ok` is what `malloc` returns. -/
def ctrlStep (ok : Bool) : Option State :=
  match s.ctrl with
  | .stopped | .started => none
  | .startMalloc size =>
    if size = 0 then some { s with ctrl := .startRun }
    else if ok then
      some { s with
        buf := some s.ledger.next, bufSize := size, ledger := s.ledger.alloc, ctrl := .startRun }
    else some { s with buf := none, ctrl := .started }
  | .startRun => some { s with run := true, ctrl := .startOpened }
  | .startOpened => some { s with opened := false, ctrl := .startExit }
  | .startExit => some { s with exit := false, ctrl := .startPost }
  | .startPost => some { s with sem := s.sem + 1, ctrl := .started }
  | .stopRun => some { s with run := false, ctrl := .stopTestAdc }
  | .stopTestAdc => some { s with ctrl := .stopWait }
  | .stopWait => some { s with ctrl := if s.exit then .stopFree else .stopWait }
  | .stopFree => some { s with ledger := s.ledger.releaseIf s.buf, ctrl := .stopSize }
  | .stopSize => some { s with bufSize := 0, ctrl := .stopSource }
  | .stopSource => some { s with fromAdc := false, ctrl := .stopOpened }
  | .stopOpened => some { s with opened := false, ctrl := .stopped }

/-- `ok` is what `init_stream` or `pcm_read` returns. -/
def managerStep (ok : Bool) : Option State :=
  match s.manager with
  | .semWait => if 0 < s.sem then some { s with sem := s.sem - 1, manager := .testRun } else none
  | .testRun => some { s with manager := if s.run then .clearExit else .semWait }
  | .clearExit => some { s with exit := false, manager := .testAdc }
  | .testAdc => some { s with manager := if s.fromAdc then .testOpened else .testClose }
  | .testOpened => some { s with manager := if s.opened then .pcmRead false else .initStream }
  | .initStream => some { s with manager := if ok then .setOpened false else .failExit }
  | .failExit => some { s with exit := true, manager := .setOpened true }
  | .setOpened failed => some { s with opened := true, manager := .pcmRead failed }
  | .pcmRead failed => some { s with manager := .testLoop (failed || !ok) }
  | .testClose => some { s with manager := if s.opened then .closeStream else .loadBuf }
  | .closeStream => some { s with opened := false, manager := .loadBuf }
  | .loadBuf => some { s with manager := .readPcmBuf s.buf }
  | .readPcmBuf buf => some { s with ledger := s.ledger.useIf buf, manager := .wavSave s.buf }
  | .wavSave buf => some { s with ledger := s.ledger.useIf buf, manager := .testLoop false }
  | .testLoop failed => some { s with manager := if !s.run || failed then .testEnd else .testAdc }
  | .testEnd => some { s with manager := if s.opened then .closeEnd else .setExit }
  | .closeEnd => some { s with opened := false, manager := .setExit }
  | .setExit => some { s with exit := true, manager := .semWait }

end State

inductive Act
  | startRecord (size : ℕ)
  | stopRecord
  | setRecordSource (fromAdc : Bool)
  | ctrl (ok : Bool)
  | manager (ok : Bool)
  deriving DecidableEq

def State.step (s : State) : Act → Option State
  | .startRecord size =>
    if s.ctrl = .stopped then some { s with ctrl := .startMalloc size } else none
  | .stopRecord => if s.ctrl = .started then some { s with ctrl := .stopRun } else none
  | .setRecordSource fromAdc =>
    if s.ctrl = .stopped ∨ s.ctrl = .started then some { s with fromAdc := fromAdc } else none
  | .ctrl ok => s.ctrlStep ok
  | .manager ok => s.managerStep ok

/-! ## The property, and the condition -/

/-- The stop waits, and the thread sleeps. -/
def Stuck (s : State) : Prop :=
  s.ctrl = .stopWait ∧ s.exit = false ∧ s.manager = .semWait ∧ s.sem = 0

instance (s : State) : Decidable (Stuck s) := inferInstanceAs (Decidable (_ ∧ _))

/-- No stop waits for ever; no buffer is freed twice or accessed behind its release; and when no
recording is on, all of them have been freed. -/
structure Right (s : State) : Prop where
  not_stuck : ¬ Stuck s
  sound : s.ledger.Sound
  freed : s.ctrl = .stopped → ∀ b, b < s.ledger.next → s.ledger.released b = 1

/-- The exit flag is set, or the thread is in a session and will set it. -/
def Attended (s : State) : Prop := s.exit = true ∨ s.manager.inSession = true

/-- A start without a buffer finds no old one; a stop clears the run flag only when the thread has
seen it; and the exit flag that a stop finds set is that of a session that is over. -/
def CtrlOk (s : State) : CtrlPc → Prop
  | .startMalloc size => size = 0 → s.buf = none
  | .stopRun => Attended s
  | .stopWait => s.exit = true → s.manager.away = true
  | _ => True

def Ok : Act → State → Prop
  | .ctrl _, s => CtrlOk s s.ctrl
  | _, _ => True

instance (s : State) : Decidable (Attended s) := inferInstanceAs (Decidable (_ ∨ _))

instance (s : State) (pc : CtrlPc) : Decidable (CtrlOk s pc) := by
  cases pc <;> unfold CtrlOk <;> infer_instance

instance (a : Act) (s : State) : Decidable (Ok a s) := by
  cases a <;> unfold Ok <;> infer_instance

/-! ## The invariant -/

/-- The controller's buffer. -/
def Owned (s : State) (b : ℕ) : Prop := s.ctrl.holding = true ∧ s.buf = some b

/-- The stop has cleared the run flag, and may be waiting. -/
def CtrlPc.waiting : CtrlPc → Bool
  | .stopTestAdc | .stopWait => true
  | _ => false

/-- The run flag is not set. -/
def CtrlPc.runCleared : CtrlPc → Bool
  | .stopTestAdc | .stopWait | .stopFree => true
  | pc => !pc.holding

/-- The thread is away from the buffer. -/
def CtrlPc.apart : CtrlPc → Bool
  | .stopFree => true
  | pc => !pc.holding

structure Inv (s : State) : Prop where
  run : s.ctrl.runCleared = true → s.run = false
  away : s.ctrl.apart = true → s.manager.away = true
  waiting : s.ctrl.waiting = true → Attended s
  buf : ∀ b ∈ s.manager.buf, s.buf = some b
  balanced : s.ledger.Balanced (Owned s)

lemma inv_init : Inv init :=
  ⟨fun _ => rfl, fun _ => rfl, nofun, nofun, Ledger.balanced_empty fun _ h => nomatch h.1⟩

variable {s s' : State} {b : ℕ}

lemma Inv.right (hs : Inv s) : Right s := by
  refine ⟨?_, hs.balanced.sound, fun hctrl b hb => hs.balanced.others b hb ?_⟩
  · rintro ⟨hctrl, hexit, hmanager, -⟩
    rcases hs.waiting (by rw [hctrl]; rfl) with h | h
    · exact Bool.false_ne_true (hexit.symm.trans h)
    · rw [hmanager] at h
      cases h
  · rintro ⟨hholding, -⟩
    rw [hctrl] at hholding
    cases hholding

/-- Away from the buffer the thread has no pointer to it. -/
lemma ManagerPc.buf_of_away {pc : ManagerPc} (haway : pc.away = true) : pc.buf = none := by
  cases pc with
  | readPcmBuf | wavSave => cases haway
  | _ => rfl

lemma CtrlPc.holding_of_apart {pc : CtrlPc} (hpc : pc.apart = false) : pc.holding = true := by
  cases pc <;> first | rfl | cases hpc

lemma CtrlPc.runCleared_of_apart {pc : CtrlPc} (hpc : pc.apart = true) : pc.runCleared = true := by
  cases pc <;> first | rfl | cases hpc

lemma CtrlPc.runCleared_of_waiting {pc : CtrlPc} (hpc : pc.waiting = true) :
    pc.runCleared = true := by
  cases pc <;> first | rfl | cases hpc

/-- What the thread has in its hands is the controller's. -/
lemma Inv.owned (hs : Inv s) (hb : b ∈ s.manager.buf) : Owned s b := by
  refine ⟨CtrlPc.holding_of_apart (Bool.eq_false_iff.mpr fun hapart => ?_), hs.buf b hb⟩
  rw [ManagerPc.buf_of_away (hs.away hapart)] at hb
  cases hb

/-! ## Steps of the thread -/

/-- The thread goes on; where it matters, the run flag is not set. -/
lemma Inv.of_manager (hs : Inv s) (hctrl : s'.ctrl = s.ctrl) (hrun : s'.run = s.run)
    (hbuf : s'.buf = s.buf)
    (haway : s.run = false → s.manager.away = true → s'.manager.away = true)
    (hattended : s.run = false → Attended s → Attended s')
    (hptr : ∀ b ∈ s'.manager.buf, s.buf = some b) (hbalanced : s'.ledger.Balanced (Owned s)) :
    Inv s' := by
  refine ⟨?_, ?_, ?_, ?_, hbalanced.congr fun b => ?_⟩
  · rw [hctrl, hrun]
    exact hs.run
  · rw [hctrl]
    exact fun h => haway (hs.run (CtrlPc.runCleared_of_apart h)) (hs.away h)
  · rw [hctrl]
    exact fun h => hattended (hs.run (CtrlPc.runCleared_of_waiting h)) (hs.waiting h)
  · rw [hbuf]
    exact hptr
  · rw [Owned, Owned, hctrl, hbuf]

/-- The thread may access the buffer, and stays in its session. -/
lemma Inv.of_busy (hs : Inv s) (hctrl : s'.ctrl = s.ctrl) (hrun : s'.run = s.run)
    (hbuf : s'.buf = s.buf) (hbusy : s.manager.away = false)
    (hsession : s'.manager.inSession = true) (hptr : ∀ b ∈ s'.manager.buf, s.buf = some b)
    (hbalanced : s'.ledger.Balanced (Owned s)) : Inv s' :=
  hs.of_manager hctrl hrun hbuf (fun _ h => absurd (hbusy.symm.trans h) Bool.false_ne_true)
    (fun _ _ => .inr hsession) hptr hbalanced

/-- A test in its session, behind which it has nothing of the buffer in its hands. -/
lemma Inv.of_test (hs : Inv s) (hbusy : s.manager.away = false) {b : Bool} {pc pc' : ManagerPc}
    (hpc : pc.inSession = true ∧ pc.buf = none) (hpc' : pc'.inSession = true ∧ pc'.buf = none) :
    Inv { s with manager := if b then pc else pc' } := by
  have hboth : (if b then pc else pc').inSession = true ∧ (if b then pc else pc').buf = none := by
    split_ifs
    · exact hpc
    · exact hpc'
  refine hs.of_busy rfl rfl rfl hbusy hboth.1 ?_ hs.balanced
  rw [hboth.2]
  exact nofun

/-- A thread that is not in a session keeps the exit flag. -/
lemma Attended.exit (hs : Attended s) (hmanager : s.manager.inSession = false) : s.exit = true :=
  hs.resolve_right fun h => Bool.false_ne_true (hmanager.symm.trans h)

lemma Inv.managerStep (hs : Inv s) {ok : Bool} (hstep : s.managerStep ok = some s') : Inv s' := by
  have hptr := hs.buf
  have howned := fun b (hb : b ∈ s.manager.buf) => hs.owned hb
  cases hpc : s.manager with
  | semWait =>
    simp only [State.managerStep, hpc] at hstep
    split_ifs at hstep
    obtain rfl := Option.some.inj hstep
    exact hs.of_manager rfl rfl rfl (fun _ _ => rfl)
      (fun _ h => .inl (h.exit (by rw [hpc]; rfl))) nofun hs.balanced
  | testRun =>
    simp only [State.managerStep, hpc] at hstep
    obtain rfl := Option.some.inj hstep
    refine hs.of_manager rfl rfl rfl (fun hrun _ => ?_)
      (fun _ h => .inl (h.exit (by rw [hpc]; rfl))) ?_ hs.balanced
    · rw [hrun]
      rfl
    · dsimp only
      split_ifs <;> exact nofun
  | clearExit =>
    simp only [State.managerStep, hpc] at hstep
    obtain rfl := Option.some.inj hstep
    exact hs.of_busy rfl rfl rfl (by rw [hpc]; rfl) rfl nofun hs.balanced
  | testAdc =>
    simp only [State.managerStep, hpc] at hstep
    obtain rfl := Option.some.inj hstep
    exact hs.of_test (by rw [hpc]; rfl) ⟨rfl, rfl⟩ ⟨rfl, rfl⟩
  | testOpened =>
    simp only [State.managerStep, hpc] at hstep
    obtain rfl := Option.some.inj hstep
    exact hs.of_test (by rw [hpc]; rfl) ⟨rfl, rfl⟩ ⟨rfl, rfl⟩
  | initStream =>
    simp only [State.managerStep, hpc] at hstep
    obtain rfl := Option.some.inj hstep
    exact hs.of_test (by rw [hpc]; rfl) ⟨rfl, rfl⟩ ⟨rfl, rfl⟩
  | failExit =>
    simp only [State.managerStep, hpc] at hstep
    obtain rfl := Option.some.inj hstep
    exact hs.of_manager rfl rfl rfl (fun _ _ => rfl) (fun _ _ => .inr rfl) nofun hs.balanced
  | setOpened failed =>
    simp only [State.managerStep, hpc] at hstep
    obtain rfl := Option.some.inj hstep
    refine hs.of_manager rfl rfl rfl (fun _ h => ?_) (fun _ _ => .inr rfl) nofun hs.balanced
    rw [hpc] at h
    exact h
  | pcmRead failed =>
    simp only [State.managerStep, hpc] at hstep
    obtain rfl := Option.some.inj hstep
    refine hs.of_manager rfl rfl rfl (fun _ h => ?_) (fun _ _ => .inr rfl) nofun hs.balanced
    rw [hpc] at h
    obtain rfl : failed = true := h
    rfl
  | testClose =>
    simp only [State.managerStep, hpc] at hstep
    obtain rfl := Option.some.inj hstep
    exact hs.of_test (by rw [hpc]; rfl) ⟨rfl, rfl⟩ ⟨rfl, rfl⟩
  | closeStream =>
    simp only [State.managerStep, hpc] at hstep
    obtain rfl := Option.some.inj hstep
    exact hs.of_busy rfl rfl rfl (by rw [hpc]; rfl) rfl nofun hs.balanced
  | loadBuf =>
    simp only [State.managerStep, hpc] at hstep
    obtain rfl := Option.some.inj hstep
    exact hs.of_busy rfl rfl rfl (by rw [hpc]; rfl) rfl (fun _ hb => hb) hs.balanced
  | readPcmBuf buf =>
    rw [hpc] at howned
    simp only [State.managerStep, hpc] at hstep
    obtain rfl := Option.some.inj hstep
    exact hs.of_busy rfl rfl rfl (by rw [hpc]; rfl) rfl (fun _ hb => hb) (hs.balanced.useIf howned)
  | wavSave buf =>
    rw [hpc] at howned
    simp only [State.managerStep, hpc] at hstep
    obtain rfl := Option.some.inj hstep
    exact hs.of_busy rfl rfl rfl (by rw [hpc]; rfl) rfl nofun (hs.balanced.useIf howned)
  | testLoop failed =>
    simp only [State.managerStep, hpc] at hstep
    obtain rfl := Option.some.inj hstep
    refine hs.of_manager rfl rfl rfl (fun hrun _ => ?_) (fun _ _ => .inr ?_) ?_ hs.balanced
    · rw [hrun]
      rfl
    · dsimp only
      split_ifs <;> rfl
    · dsimp only
      split_ifs <;> exact nofun
  | testEnd =>
    simp only [State.managerStep, hpc] at hstep
    obtain rfl := Option.some.inj hstep
    refine hs.of_manager rfl rfl rfl (fun _ _ => ?_) (fun _ _ => .inr ?_) ?_ hs.balanced
    · dsimp only
      split_ifs <;> rfl
    · dsimp only
      split_ifs <;> rfl
    · dsimp only
      split_ifs <;> exact nofun
  | closeEnd =>
    simp only [State.managerStep, hpc] at hstep
    obtain rfl := Option.some.inj hstep
    exact hs.of_manager rfl rfl rfl (fun _ _ => rfl) (fun _ _ => .inr rfl) nofun hs.balanced
  | setExit =>
    simp only [State.managerStep, hpc] at hstep
    obtain rfl := Option.some.inj hstep
    exact hs.of_manager rfl rfl rfl (fun _ _ => rfl) (fun _ _ => .inl rfl) nofun hs.balanced

/-! ## Steps of the controller -/

/-- The controller goes on, and keeps the buffer as it is. -/
lemma Inv.of_ctrl (hs : Inv s) (hmanager : s'.manager = s.manager) (hbuf : s'.buf = s.buf)
    (hledger : s'.ledger = s.ledger) (hholding : s'.ctrl.holding = s.ctrl.holding)
    (hrun : s'.ctrl.runCleared = true → s'.run = false)
    (haway : s'.ctrl.apart = true → s.manager.away = true)
    (hwaiting : s'.ctrl.waiting = true → Attended s') : Inv s' := by
  refine ⟨hrun, ?_, hwaiting, ?_, ?_⟩
  · rw [hmanager]
    exact haway
  · rw [hmanager, hbuf]
    exact hs.buf
  · rw [hledger]
    refine hs.balanced.congr fun b => ?_
    rw [Owned, Owned, hholding, hbuf]

/-- A start allocates the buffer, when there is none. -/
lemma Inv.startMalloc (hs : Inv s) {ok : Bool} {size : ℕ} (hctrl : s.ctrl = .startMalloc size)
    (hok : CtrlOk s (.startMalloc size)) (hstep : s.ctrlStep ok = some s') : Inv s' := by
  have hnone : ∀ b, ¬ Owned s b := fun b ho => by
    rw [Owned, hctrl] at ho
    exact nomatch ho.1
  have hbuf := ManagerPc.buf_of_away (hs.away (by rw [hctrl]; rfl))
  simp only [State.ctrlStep, hctrl] at hstep
  split_ifs at hstep with hsize
  · -- no buffer, and no old one
    obtain rfl := Option.some.inj hstep
    refine ⟨nofun, nofun, nofun, hs.buf, hs.balanced.congr fun b => ?_⟩
    refine iff_of_false ?_ (hnone b)
    rintro ⟨-, hb⟩
    rw [hok hsize] at hb
    cases hb
  · obtain rfl := Option.some.inj hstep
    refine ⟨nofun, nofun, nofun, ?_, hs.balanced.alloc fun b => ?_⟩
    · rw [hbuf]
      exact nofun
    · rw [or_iff_left (hnone b)]
      exact ⟨fun ho => (Option.some.inj ho.2).symm, fun hb => ⟨rfl, congrArg some hb.symm⟩⟩
  · obtain rfl := Option.some.inj hstep
    refine ⟨nofun, nofun, nofun, ?_, hs.balanced.congr fun b => iff_of_false nofun (hnone b)⟩
    rw [hbuf]
    exact nofun

/-- A stop releases it, when the thread is away. -/
lemma Inv.stopFree (hs : Inv s) {ok : Bool} (hctrl : s.ctrl = .stopFree)
    (hstep : s.ctrlStep ok = some s') : Inv s' := by
  have hrun := hs.run
  have haway := hs.away
  rw [hctrl] at hrun haway
  simp only [State.ctrlStep, hctrl] at hstep
  obtain rfl := Option.some.inj hstep
  have howned : ∀ b, Owned s b ↔ b ∈ s.buf := fun b => by
    rw [Owned, hctrl]
    exact and_iff_right rfl
  refine ⟨fun _ => hrun rfl, fun _ => haway rfl, nofun, hs.buf, ?_⟩
  refine hs.balanced.releaseIf (fun b => (howned b).mpr) fun b => iff_of_false nofun ?_
  exact fun h => h.1 ((howned b).mp h.2)

lemma Inv.ctrlStep (hs : Inv s) {ok : Bool} (hok : CtrlOk s s.ctrl)
    (hstep : s.ctrlStep ok = some s') : Inv s' := by
  have hrun := hs.run
  have haway := hs.away
  have hwaiting := hs.waiting
  cases hctrl : s.ctrl with
  | stopped | started =>
    rw [State.ctrlStep, hctrl] at hstep
    cases hstep
  | startMalloc size => exact hs.startMalloc hctrl (hctrl ▸ hok) hstep
  | startRun =>
    simp only [State.ctrlStep, hctrl] at hstep
    obtain rfl := Option.some.inj hstep
    exact hs.of_ctrl rfl rfl rfl (by rw [hctrl]; rfl) nofun nofun nofun
  | startOpened =>
    simp only [State.ctrlStep, hctrl] at hstep
    obtain rfl := Option.some.inj hstep
    exact hs.of_ctrl rfl rfl rfl (by rw [hctrl]; rfl) nofun nofun nofun
  | startExit =>
    simp only [State.ctrlStep, hctrl] at hstep
    obtain rfl := Option.some.inj hstep
    exact hs.of_ctrl rfl rfl rfl (by rw [hctrl]; rfl) nofun nofun nofun
  | startPost =>
    simp only [State.ctrlStep, hctrl] at hstep
    obtain rfl := Option.some.inj hstep
    exact hs.of_ctrl rfl rfl rfl (by rw [hctrl]; rfl) nofun nofun nofun
  | stopRun =>
    rw [hctrl] at hok
    simp only [State.ctrlStep, hctrl] at hstep
    obtain rfl := Option.some.inj hstep
    exact hs.of_ctrl rfl rfl rfl (by rw [hctrl]; rfl) (fun _ => rfl) nofun (fun _ => hok)
  | stopTestAdc =>
    rw [hctrl] at hrun hwaiting
    simp only [State.ctrlStep, hctrl] at hstep
    obtain rfl := Option.some.inj hstep
    exact hs.of_ctrl rfl rfl rfl (by rw [hctrl]; rfl) (fun _ => hrun rfl) nofun
      (fun _ => hwaiting rfl)
  | stopWait =>
    rw [hctrl] at hok hrun hwaiting
    simp only [State.ctrlStep, hctrl] at hstep
    obtain rfl := Option.some.inj hstep
    by_cases hexit : s.exit = true
    · simp only [if_pos hexit]
      exact hs.of_ctrl rfl rfl rfl (by rw [hctrl]; rfl) (fun _ => hrun rfl) (fun _ => hok hexit)
        nofun
    · simp only [if_neg hexit]
      exact hs.of_ctrl rfl rfl rfl (by rw [hctrl]) (fun _ => hrun rfl) nofun
        (fun _ => hwaiting rfl)
  | stopFree => exact hs.stopFree hctrl hstep
  | stopSize =>
    rw [hctrl] at hrun haway
    simp only [State.ctrlStep, hctrl] at hstep
    obtain rfl := Option.some.inj hstep
    exact hs.of_ctrl rfl rfl rfl (by rw [hctrl]; rfl) (fun _ => hrun rfl) (fun _ => haway rfl) nofun
  | stopSource =>
    rw [hctrl] at hrun haway
    simp only [State.ctrlStep, hctrl] at hstep
    obtain rfl := Option.some.inj hstep
    exact hs.of_ctrl rfl rfl rfl (by rw [hctrl]; rfl) (fun _ => hrun rfl) (fun _ => haway rfl) nofun
  | stopOpened =>
    rw [hctrl] at hrun haway
    simp only [State.ctrlStep, hctrl] at hstep
    obtain rfl := Option.some.inj hstep
    exact hs.of_ctrl rfl rfl rfl (by rw [hctrl]; rfl) (fun _ => hrun rfl) (fun _ => haway rfl) nofun

/-! ## Runs -/

/-- A step under the condition keeps the invariant. -/
lemma Inv.step {a : Act} (hs : Inv s) (hok : Ok a s) (hstep : s.step a = some s') : Inv s' := by
  have hrun := hs.run
  have haway := hs.away
  cases a with
  | startRecord size =>
    simp only [State.step] at hstep
    split_ifs at hstep with hctrl
    obtain rfl := Option.some.inj hstep
    rw [hctrl] at hrun haway
    exact hs.of_ctrl rfl rfl rfl (by rw [hctrl]; rfl) (fun _ => hrun rfl) (fun _ => haway rfl) nofun
  | stopRecord =>
    simp only [State.step] at hstep
    split_ifs at hstep with hctrl
    obtain rfl := Option.some.inj hstep
    exact hs.of_ctrl rfl rfl rfl (by rw [hctrl]; rfl) nofun nofun nofun
  | setRecordSource fromAdc =>
    simp only [State.step] at hstep
    split_ifs at hstep
    obtain rfl := Option.some.inj hstep
    exact hs.of_ctrl rfl rfl rfl rfl hrun haway hs.waiting
  | ctrl ok => exact hs.ctrlStep hok hstep
  | manager ok => exact hs.managerStep hstep

/-- A start with a buffer. -/
def startActs : List Act := .startRecord 8 :: List.replicate 5 (.ctrl true)

/-- The thread reads a block into the buffer, and saves it. -/
def blockActs : List Act := List.replicate 8 (.manager true)

/-- A stop while the thread is in its session. -/
def stopActs : List Act :=
  .stopRecord :: List.replicate 2 (.ctrl true) ++ List.replicate 3 (.manager true) ++
    List.replicate 5 (.ctrl true)

end Softwinner.Audio.RecordThread

import Mathlib.Data.Nat.Notation
import Mathlib.Logic.Basic
import Softwinner.Framework.Runs

/-!
# Focus

A camera with a lens has a thread, `autoFocusThread` of `CameraHardware2.cpp`.  It follows the
status of the lens and reports when it begins and ends to move; when the application calls
`setAutoFocus`, the next pass of the thread waits for the lens and answers with one message.
`cleanupCamera` waits for the thread to end, which it does in a few steps once the lens has answered
(`cleanup_returns`).

The application is served as it expects exactly as long as no reset of `mIsSingleFocus` finds a call
that came behind the message, or a movement that the application has been told of; the lens does not
stop without a result; the status never says that there is no device while the camera is open, which
ends the thread; and the camera is not opened while the thread of the last session is about to end,
or has left something behind (`served_iff`).
-/

namespace Softwinner.Camera.AutoFocus

open Framework

/-! ## State -/

/-- What `getAutoFocusStatus` returns, as far as it is told apart. -/
inductive Status
  | idle | busy | reached | failed
  -- another value from 0 on, a negative value, and `0xFF000000`
  | unknown | error | noDevice
  deriving DecidableEq

/-- `FOCUS_STATUS_…`. -/
inductive FocusStatus
  | idle | success | fail | done | busy
  deriving DecidableEq

/-- The bits. -/
def FocusStatus.value : FocusStatus → ℕ
  | .idle => 0
  | .success => 1
  | .fail => 2
  | .done => 3
  | .busy => 4

/-- `s & FOCUS_STATUS_DONE`. -/
def FocusStatus.isDone (s : FocusStatus) : Bool := s.value &&& FocusStatus.done.value != 0

/-- Where `autoFocusThread` is. -/
inductive Pc
  -- at the beginning of a pass, and before it looks at `mIsSingleFocus`
  | top | test
  -- in the loop for a call, and behind its message
  | single | told
  | poll
  -- at the end with `ret == false`, behind that, and when `run` can start a new thread
  | leaving | left | gone
  deriving DecidableEq

/-- The thread goes on. -/
def Pc.alive : Pc → Bool
  | .top | .test | .single | .told | .poll => true
  | .leaving | .left | .gone => false

/-- Nothing signals any more. -/
def Pc.ended : Pc → Bool
  | .left | .gone => true
  | .top | .test | .single | .told | .poll | .leaving => false

/-- The application and its calls; `waiting` is the wait in `cleanupCamera`. -/
inductive Session
  | closed | opened | closing | waiting
  deriving DecidableEq

/-- `owed` is that a call has not been answered, and `moving` that the lens moves by what the
application has been told. -/
structure State where
  running : Bool
  threadExit : Bool
  pc : Pc
  isSingleFocus : Bool
  focusStatus : FocusStatus
  session : Session
  owed : Bool
  moving : Bool
  deriving DecidableEq

def initial : State := ⟨false, true, .gone, false, .idle, .closed, false, false⟩

/-! ## Steps -/

/-- Critical sections are one step each. -/
inductive Act
  | connectCamera | setAutoFocus
  -- the two critical sections of `cleanupCamera`
  | stop | check
  -- `autoFocusThread`
  | begin | test | turn (status : Status) (timeout : Bool) | reset | poll (status : Status)
  | leave | finish
  deriving DecidableEq

/-- The loop for a call ends. -/
def Breaks (timeout : Bool) : Status → Bool
  | .idle | .busy => timeout
  | .unknown => false
  | .reached | .failed | .error | .noDevice => true

/-- `new_status`. -/
def newStatus : Status → Option FocusStatus
  | .idle => some .idle
  | .busy => some .busy
  | .reached => some .success
  | .failed => some .fail
  | .unknown | .error | .noDevice => none

namespace State

variable (s : State)

/-- `autoFocusContinuousMsg`, and the status. -/
def change (new : FocusStatus) : State :=
  if s.focusStatus = new then s
  else if (s.focusStatus = .idle ∨ s.focusStatus.isDone) ∧ new = .busy then
    { s with moving := true, focusStatus := new }
  else if s.focusStatus = .busy ∧ new.isDone then { s with moving := false, focusStatus := new }
  else { s with focusStatus := new }

/-- The continuous mode. -/
def follow (status : Status) : State :=
  match newStatus status with
  | some new => { s.change new with pc := .top }
  | none => { s with pc := if status = .noDevice then .leaving else .top }

def step : Act → Option State
  | .connectCamera =>
    if s.session = .closed then
      -- `run` fails when the last thread has not returned
      some { s with
        session := .opened, owed := false, moving := false
        running := true, pc := if s.pc = .gone then .top else s.pc }
    else none
  | .setAutoFocus =>
    if s.session = .opened then some { s with isSingleFocus := true, owed := true } else none
  | .stop =>
    if s.session = .opened then some { s with session := .closing, running := false } else none
  | .check =>
    if s.session = .closing then
      some { s with session := if s.threadExit then .closed else .waiting }
    else none
  | .begin =>
    if s.pc = .top then
      some (if s.running then { s with threadExit := false, pc := .test }
        else { s with pc := .leaving })
    else none
  | .test =>
    if s.pc = .test then some { s with pc := if s.isSingleFocus then .single else .poll } else none
  | .turn status timeout =>
    if s.pc = .single then
      -- `autoFocusMsg`
      some (if Breaks timeout status then { s with pc := .told, owed := false } else s)
    else none
  | .reset =>
    if s.pc = .told then some { s with isSingleFocus := false, focusStatus := .done, pc := .top }
    else none
  | .poll status => if s.pc = .poll then some (s.follow status) else none
  | .leave =>
    if s.pc = .leaving then
      some { s with
        threadExit := true, pc := .left
        session := if s.session = .waiting then .closed else s.session }
    else none
  | .finish => if s.pc = .left then some { s with pc := .gone } else none

end State

/-! ## The property, and the condition -/

/-- What the application can expect. -/
structure Served (s : State) : Prop where
  -- there is a thread as long as the camera is open
  alive : s.session = .opened → s.pc.alive = true
  -- the next pass of the thread answers a call that has not been answered, and no other
  answered : s.session = .opened → s.owed = true → s.isSingleFocus = true
  asked : s.session = .opened → s.isSingleFocus = true → s.owed = true ∨ s.pc = .told
  told : s.session = .opened → (s.moving = true ↔ s.focusStatus = .busy)

/-- The steps that keep it. -/
def Ok : Act → State → Prop
  | .connectCamera, s =>
    (s.pc ≠ .leaving ∧ s.pc ≠ .left) ∧ s.isSingleFocus = false ∧ s.focusStatus ≠ .busy
  | .reset, s => s.session = .opened → s.owed = false ∧ s.focusStatus ≠ .busy
  | .poll status, s =>
    s.session = .opened → status ≠ .noDevice ∧ (status = .idle → s.focusStatus ≠ .busy)
  | _, _ => True

instance : ∀ (a : Act) (s : State), Decidable (Ok a s)
  | .connectCamera, _ => inferInstanceAs (Decidable (_ ∧ _))
  | .reset, _ => inferInstanceAs (Decidable (_ → _))
  | .poll _, _ => inferInstanceAs (Decidable (_ → _))
  | .setAutoFocus, _ | .stop, _ | .check, _ | .begin, _ | .test, _ | .turn _ _, _ | .leave, _
  | .finish, _ => inferInstanceAs (Decidable True)

/-! ## One step -/

/-- What a pass in the continuous mode changes.  The application is told of the end of a movement
with a result, and not of one without. -/
inductive Follows (s : State) : Status → State → Prop
  | leaves : Follows s .noDevice { s with pc := .leaving }
  | skips {status : Status} (hnone : newStatus status = none) (hdevice : status ≠ .noDevice) :
    Follows s status { s with pc := .top }
  | changes {status : Status} {new : FocusStatus} (hnew : newStatus status = some new)
    {moving : Bool}
    (hmoving : s.focusStatus ≠ .busy ∨ new ≠ .idle →
      (s.moving = true ↔ s.focusStatus = .busy) → (moving = true ↔ new = .busy))
    (hlost : s.focusStatus = .busy → new = .idle → moving = s.moving) :
    Follows s status { s with moving := moving, focusStatus := new, pc := .top }

/-- The steps by what they need and do. -/
inductive Steps (s : State) : Act → State → Prop
  | connects (hsession : s.session = .closed) {pc : Pc}
    (hpc : s.pc = .gone ∧ pc = .top ∨ s.pc ≠ .gone ∧ pc = s.pc) :
    Steps s .connectCamera { s with
      session := .opened, owed := false, moving := false, running := true, pc := pc }
  | calls (hsession : s.session = .opened) :
    Steps s .setAutoFocus { s with isSingleFocus := true, owed := true }
  | stops (hsession : s.session = .opened) :
    Steps s .stop { s with session := .closing, running := false }
  | closes (hsession : s.session = .closing) (hexit : s.threadExit = true) :
    Steps s .check { s with session := .closed }
  | waits (hsession : s.session = .closing) (hexit : s.threadExit = false) :
    Steps s .check { s with session := .waiting }
  | enters (hpc : s.pc = .top) (hrun : s.running = true) :
    Steps s .begin { s with threadExit := false, pc := .test }
  | ends (hpc : s.pc = .top) (hrun : s.running = false) : Steps s .begin { s with pc := .leaving }
  | tests (hpc : s.pc = .test) {pc : Pc} (hto : pc = .single ∨ pc = .poll) :
    Steps s .test { s with pc := pc }
  | answers {status : Status} {timeout : Bool} (hpc : s.pc = .single) :
    Steps s (.turn status timeout) { s with pc := .told, owed := false }
  | turns {status : Status} {timeout : Bool} (hpc : s.pc = .single)
    (hgoes : Breaks timeout status = false) : Steps s (.turn status timeout) s
  | resets (hpc : s.pc = .told) :
    Steps s .reset { s with isSingleFocus := false, focusStatus := .done, pc := .top }
  | polls {status : Status} {t : State} (hpc : s.pc = .poll) (hfollows : Follows s status t) :
    Steps s (.poll status) t
  | leaves (hpc : s.pc = .leaving) {session : Session}
    (hsession : s.session = .waiting ∧ session = .closed ∨
      s.session ≠ .waiting ∧ session = s.session) :
    Steps s .leave { s with threadExit := true, pc := .left, session := session }
  | returns (hpc : s.pc = .left) : Steps s .finish { s with pc := .gone }

variable {s t : State} {a : Act}

lemma change_eq (s : State) (new : FocusStatus) : ∃ moving,
    s.change new = { s with moving := moving, focusStatus := new } ∧
      (s.focusStatus ≠ .busy ∨ new ≠ .idle →
        (s.moving = true ↔ s.focusStatus = .busy) → (moving = true ↔ new = .busy)) ∧
      (s.focusStatus = .busy → new = .idle → moving = s.moving) := by
  unfold State.change
  split_ifs with hsame hstarts hends
  · subst hsame
    exact ⟨s.moving, rfl, fun _ h => h, fun _ _ => rfl⟩
  · refine ⟨true, rfl, fun _ _ => iff_of_true rfl hstarts.2, fun _ hidle => ?_⟩
    cases hstarts.2.symm.trans hidle
  · have hnot : new ≠ .busy := fun hbusy => absurd (hbusy ▸ hends.2) (by decide)
    refine ⟨false, rfl, fun _ _ => iff_of_false Bool.false_ne_true hnot, fun _ hidle => ?_⟩
    exact absurd (hidle ▸ hends.2) (by decide)
  · refine ⟨s.moving, rfl, fun hlost htold => htold.trans ?_, fun _ _ => rfl⟩
    generalize s.focusStatus = old at *
    cases old <;> cases new <;> simp_all [FocusStatus.isDone, FocusStatus.value]

lemma follows (s : State) (status : Status) : Follows s status (s.follow status) := by
  unfold State.follow
  cases hnew : newStatus status with
  | none =>
    dsimp only
    split_ifs with hdevice
    · exact hdevice ▸ .leaves
    · exact .skips hnew hdevice
  | some new =>
    obtain ⟨moving, heq, hmoving, hlost⟩ := change_eq s new
    dsimp only
    rw [heq]
    exact .changes hnew hmoving hlost

lemma step_cases (h : s.step a = some t) : Steps s a t := by
  cases a with
  | connectCamera =>
    simp only [State.step] at h
    split_ifs at h with hsession hgone
    · exact Option.some.inj h ▸ .connects hsession (.inl ⟨hgone, rfl⟩)
    · exact Option.some.inj h ▸ .connects hsession (.inr ⟨hgone, rfl⟩)
  | setAutoFocus =>
    simp only [State.step] at h
    split_ifs at h with hsession
    exact Option.some.inj h ▸ .calls hsession
  | stop =>
    simp only [State.step] at h
    split_ifs at h with hsession
    exact Option.some.inj h ▸ .stops hsession
  | check =>
    simp only [State.step] at h
    split_ifs at h with hsession hexit
    · exact Option.some.inj h ▸ .closes hsession hexit
    · exact Option.some.inj h ▸ .waits hsession (Bool.eq_false_iff.mpr hexit)
  | begin =>
    simp only [State.step] at h
    split_ifs at h with hpc hrun
    · exact Option.some.inj h ▸ .enters hpc hrun
    · exact Option.some.inj h ▸ .ends hpc (Bool.eq_false_iff.mpr hrun)
  | test =>
    simp only [State.step] at h
    split_ifs at h with hpc hsingle
    · exact Option.some.inj h ▸ .tests hpc (.inl rfl)
    · exact Option.some.inj h ▸ .tests hpc (.inr rfl)
  | turn status timeout =>
    simp only [State.step] at h
    split_ifs at h with hpc hbreaks
    · exact Option.some.inj h ▸ .answers hpc
    · exact Option.some.inj h ▸ .turns hpc (Bool.eq_false_iff.mpr hbreaks)
  | reset =>
    simp only [State.step] at h
    split_ifs at h with hpc
    exact Option.some.inj h ▸ .resets hpc
  | poll status =>
    simp only [State.step] at h
    split_ifs at h with hpc
    exact Option.some.inj h ▸ .polls hpc (follows s status)
  | leave =>
    simp only [State.step] at h
    split_ifs at h with hpc hwaiting
    · exact Option.some.inj h ▸ .leaves hpc (.inl ⟨hwaiting, rfl⟩)
    · exact Option.some.inj h ▸ .leaves hpc (.inr ⟨hwaiting, rfl⟩)
  | finish =>
    simp only [State.step] at h
    split_ifs at h with hpc
    exact Option.some.inj h ▸ .returns hpc

/-! ## The flags -/

/-- The thread is in no pass that has begun. -/
def Pc.between : Pc → Bool
  | .top | .leaving | .left | .gone => true
  | .test | .single | .told | .poll => false

/-- The flags by the place of the thread and the session. -/
structure Inv (s : State) : Prop where
  running : s.running = true ↔ s.session = .opened
  between : s.threadExit = true → s.pc.between = true
  exited : s.pc.ended = true → s.threadExit = true
  closed : s.session = .closed → s.pc.between = true
  awaited : s.session = .waiting → s.pc.ended = false

lemma inv_initial : Inv initial :=
  ⟨iff_of_false Bool.false_ne_true fun hno => (by cases hno), fun _ => rfl, fun _ => rfl,
    fun _ => rfl, fun hno => by cases hno⟩

lemma Inv.inside (h : Inv s) (hpc : s.pc.between = false) :
    s.threadExit = false ∧ s.session ≠ .closed :=
  ⟨Bool.eq_false_iff.mpr fun hexit => (by cases hpc.symm.trans (h.between hexit)),
    fun hclosed => by cases hpc.symm.trans (h.closed hclosed)⟩

/-- The thread goes on, with the flags as they are. -/
lemma Inv.goes {p : Pc} (h : Inv s) (hrunning : t.running = s.running)
    (hsession : t.session = s.session) (hexit : t.threadExit = s.threadExit) (hpc : t.pc = p)
    (hto : p.ended = false) (hbetween : p.between = true ∨ s.pc.between = false) : Inv t := by
  constructor
  · rw [hrunning, hsession]
    exact h.running
  · intro hyes
    obtain hbetween | hinside := hbetween
    · rw [hpc, hbetween]
    · cases hyes.symm.trans (hexit.trans (h.inside hinside).1)
  · rw [hpc]
    exact fun hended => by cases hto.symm.trans hended
  · intro hclosed
    obtain hbetween | hinside := hbetween
    · rw [hpc, hbetween]
    · exact absurd (hsession.symm.trans hclosed) (h.inside hinside).2
  · rw [hpc]
    exact fun _ => hto

lemma Follows.inv {status : Status} (h : Inv s) (hfollows : Follows s status t) : Inv t := by
  cases hfollows with
  | leaves => exact h.goes (p := .leaving) rfl rfl rfl rfl rfl (.inl rfl)
  | skips => exact h.goes (p := .top) rfl rfl rfl rfl rfl (.inl rfl)
  | changes => exact h.goes (p := .top) rfl rfl rfl rfl rfl (.inl rfl)

lemma inv_step (h : Inv s) (hstep : s.step a = some t) : Inv t := by
  cases step_cases hstep with
  | connects hsession hpc =>
    obtain ⟨-, rfl⟩ | ⟨-, rfl⟩ := hpc
    · exact ⟨iff_of_true rfl rfl, fun _ => rfl, fun hended => (by cases hended),
        fun hno => (by cases hno), fun hno => by cases hno⟩
    · exact ⟨iff_of_true rfl rfl, h.between, h.exited, fun hno => (by cases hno),
        fun hno => by cases hno⟩
  | calls => exact ⟨h.running, h.between, h.exited, h.closed, h.awaited⟩
  | stops =>
    exact ⟨iff_of_false Bool.false_ne_true fun hno => (by cases hno), h.between, h.exited,
      fun hno => (by cases hno), fun hno => by cases hno⟩
  | closes hsession hexit =>
    refine ⟨iff_of_false (fun hrun => ?_) fun hno => (by cases hno), h.between, h.exited,
      fun _ => h.between hexit, fun hno => by cases hno⟩
    cases hsession.symm.trans (h.running.mp hrun)
  | waits hsession hexit =>
    refine ⟨iff_of_false (fun hrun => ?_) fun hno => (by cases hno), h.between, h.exited,
      fun hno => (by cases hno), fun _ => Bool.eq_false_iff.mpr fun hended => ?_⟩
    · cases hsession.symm.trans (h.running.mp hrun)
    · cases hexit.symm.trans (h.exited hended)
  | enters hpc hrun =>
    refine ⟨h.running, fun hno => (by cases hno), fun hended => (by cases hended),
      fun hclosed => ?_, fun _ => rfl⟩
    cases hclosed.symm.trans (h.running.mp hrun)
  | ends => exact h.goes (p := .leaving) rfl rfl rfl rfl rfl (.inl rfl)
  | tests hpc hto =>
    have hinside : s.pc.between = false := by rw [hpc]; rfl
    obtain rfl | rfl := hto
    · exact h.goes (p := .single) rfl rfl rfl rfl rfl (.inr hinside)
    · exact h.goes (p := .poll) rfl rfl rfl rfl rfl (.inr hinside)
  | answers hpc =>
    exact h.goes (p := .told) rfl rfl rfl rfl rfl (.inr (by rw [hpc]; rfl))
  | turns => exact h
  | resets => exact h.goes (p := .top) rfl rfl rfl rfl rfl (.inl rfl)
  | polls hpc hfollows => exact hfollows.inv h
  | leaves hpc hsession =>
    refine ⟨h.running.trans ?_, fun _ => rfl, fun _ => rfl, fun _ => rfl, fun hwaiting => ?_⟩
    · obtain ⟨hwaiting, rfl⟩ | ⟨-, rfl⟩ := hsession
      · rw [hwaiting]
        exact iff_of_false (fun hno => by cases hno) fun hno => by cases hno
      · exact Iff.rfl
    · obtain ⟨-, rfl⟩ | ⟨hno, rfl⟩ := hsession
      · cases hwaiting
      · exact absurd hwaiting hno
  | returns hpc =>
    refine ⟨h.running, fun _ => rfl, fun _ => h.exited (by rw [hpc]; rfl), fun _ => rfl,
      fun hwaiting => ?_⟩
    cases (h.awaited hwaiting).symm.trans (congrArg Pc.ended hpc)

/-! ## The exact condition -/

/-- Nothing is expected of a camera that is not open. -/
lemma served_of_not_opened (hsession : s.session ≠ .opened) : Served s :=
  ⟨fun hopened => absurd hopened hsession, fun hopened => absurd hopened hsession,
    fun hopened => absurd hopened hsession, fun hopened => absurd hopened hsession⟩

/-- The thread goes on to a place where it is alive, and has not yet told anything. -/
lemma Served.goes {pc : Pc} (hs : Served s) (hpc : s.pc ≠ .told) (hto : pc.alive = true) :
    Served { s with pc := pc } :=
  ⟨fun _ => hto, hs.answered,
    fun hopened hsingle => .inl ((hs.asked hopened hsingle).resolve_right hpc), hs.told⟩

lemma Follows.served {status : Status} (hs : Served s) (hpc : s.pc = .poll)
    (hfollows : Follows s status t) : Served t ↔ Ok (.poll status) s := by
  have hnot : s.pc ≠ .told := fun htold => by cases hpc.symm.trans htold
  have hfields : ∀ {moving : Bool} {new : FocusStatus},
      (s.session = .opened → (moving = true ↔ new = .busy)) →
        Served { s with moving := moving, focusStatus := new, pc := .top } :=
    fun htold => ⟨fun _ => rfl, hs.answered,
      fun hopened hsingle => .inl ((hs.asked hopened hsingle).resolve_right hnot), htold⟩
  cases hfollows with
  | leaves =>
    constructor
    · exact fun ht hopened => by cases ht.alive hopened
    · exact fun hok => served_of_not_opened fun hopened => (hok hopened).1 rfl
  | skips hnone hdevice =>
    refine iff_of_true (hs.goes hnot rfl) fun _ => ⟨hdevice, fun hidle => ?_⟩
    cases hidle ▸ hnone
  | changes hnew hmoving hlost =>
    constructor
    · intro ht hopened
      refine ⟨fun hdevice => (by cases hdevice ▸ hnew), fun hidle hbusy => ?_⟩
      subst hidle
      obtain rfl := Option.some.inj hnew
      have hmoves := (hs.told hopened).mpr hbusy
      cases (ht.told hopened).mp ((hlost hbusy rfl).trans hmoves)
    · intro hok
      refine hfields fun hopened => hmoving (not_and_or.mp ?_) (hs.told hopened)
      rintro ⟨hbusy, rfl⟩
      cases status <;> cases hnew
      exact (hok hopened).2 rfl hbusy

/-- `run` starts a thread when there is none. -/
lemma alive_iff {old new : Pc} (h : old = .gone ∧ new = .top ∨ old ≠ .gone ∧ new = old) :
    new.alive = true ↔ old ≠ .leaving ∧ old ≠ .left := by
  obtain ⟨rfl, rfl⟩ | ⟨hgone, rfl⟩ := h
  · decide
  · cases new <;> first | decide | exact absurd rfl hgone

/-- Every step keeps what the application expects exactly if it meets the condition. -/
lemma served_step (h : Inv s) (hs : Served s) (hstep : s.step a = some t) :
    Served t ↔ Ok a s := by
  cases step_cases hstep with
  | connects hsession hpc =>
    constructor
    · intro ht
      have hsingle : s.isSingleFocus = false := by
        refine Bool.eq_false_iff.mpr fun hsingle => ?_
        obtain howed | htold := ht.asked rfl hsingle
        · cases howed
        · obtain ⟨-, rfl⟩ | ⟨-, rfl⟩ := hpc
          · cases htold
          · cases (h.closed hsession).symm.trans (congrArg Pc.between htold)
      have hbusy : s.focusStatus ≠ .busy := fun hbusy => by cases (ht.told rfl).mpr hbusy
      exact ⟨(alive_iff hpc).mp (ht.alive rfl), hsingle, hbusy⟩
    · rintro ⟨hends, hsingle, hbusy⟩
      have hto := (alive_iff hpc).mpr hends
      exact ⟨fun _ => hto, fun _ hno => (by cases hno),
        fun _ hyes => (by cases hsingle.symm.trans hyes),
        fun _ => iff_of_false Bool.false_ne_true hbusy⟩
  | calls =>
    exact iff_of_true ⟨hs.alive, fun _ _ => rfl, fun _ _ => .inl rfl, hs.told⟩ trivial
  | stops => exact iff_of_true (served_of_not_opened fun hno => by cases hno) trivial
  | closes => exact iff_of_true (served_of_not_opened fun hno => by cases hno) trivial
  | waits => exact iff_of_true (served_of_not_opened fun hno => by cases hno) trivial
  | enters hpc hrun =>
    have hnot : s.pc ≠ .told := by rw [hpc]; decide
    have hgoes : Served { s with pc := .test } := hs.goes hnot rfl
    exact iff_of_true ⟨hgoes.alive, hgoes.answered, hgoes.asked, hgoes.told⟩ trivial
  | ends hpc hrun =>
    refine iff_of_true (served_of_not_opened fun hopened => ?_) trivial
    cases hrun.symm.trans (h.running.mpr hopened)
  | tests hpc hto =>
    have hnot : s.pc ≠ .told := by rw [hpc]; decide
    obtain rfl | rfl := hto
    · exact iff_of_true (hs.goes hnot rfl) trivial
    · exact iff_of_true (hs.goes hnot rfl) trivial
  | answers =>
    exact iff_of_true ⟨fun _ => rfl, fun _ hno => (by cases hno), fun _ _ => .inr rfl, hs.told⟩
      trivial
  | turns => exact iff_of_true hs trivial
  | resets hpc =>
    constructor
    · intro ht hopened
      refine ⟨Bool.eq_false_iff.mpr fun howed => ?_, fun hbusy => ?_⟩
      · cases ht.answered hopened howed
      · cases (ht.told hopened).mp ((hs.told hopened).mpr hbusy)
    · intro hok
      have hmoves : s.session = .opened → s.moving ≠ true := fun hopened hmoves =>
        (hok hopened).2 ((hs.told hopened).mp hmoves)
      refine ⟨fun _ => rfl, fun hopened howed => ?_, fun _ hno => (by cases hno),
        fun hopened => iff_of_false (hmoves hopened) fun hno => by cases hno⟩
      cases (hok hopened).1.symm.trans howed
  | polls hpc hfollows => exact hfollows.served hs hpc
  | leaves hpc hsession =>
    refine iff_of_true (served_of_not_opened ?_) trivial
    obtain ⟨-, rfl⟩ | ⟨-, rfl⟩ := hsession
    · exact fun hno => by cases hno
    · exact fun hopened => by cases (hs.alive hopened).symm.trans (congrArg Pc.alive hpc)
  | returns hpc =>
    refine iff_of_true (served_of_not_opened fun hopened => ?_) trivial
    cases (hs.alive hopened).symm.trans (congrArg Pc.alive hpc)

lemma served_initial : Served initial :=
  served_of_not_opened fun hno => by cases hno

/-- In all states of a run the application is served as it expects exactly if every step meets the
condition. -/
theorem served_iff (as : List Act) :
    Along State.step Served (fun _ _ _ => True) initial as ↔ Meets State.step Ok initial as := by
  have hgood : ∀ {s}, Inv s ∧ Served s → Served s := fun hs => hs.2
  have hkeep : ∀ {a s s'}, Inv s ∧ Served s → Ok a s → s.step a = some s' →
      (Inv s' ∧ Served s') ∧ True :=
    fun hs hok hstep =>
      ⟨⟨inv_step hs.1 hstep, (served_step hs.1 hs.2 hstep).mpr hok⟩, trivial⟩
  have hexact : ∀ {a s s'}, Inv s ∧ Served s → s.step a = some s' → True → Served s' → Ok a s :=
    fun hs hstep _ ht => (served_step hs.1 hs.2 hstep).mp ht
  exact along_iff_meets hgood hkeep hexact as ⟨inv_initial, served_initial⟩

/-- A call that comes between the message and the reset is lost. -/
example : (exec State.step Ok initial [.connectCamera, .begin, .setAutoFocus, .test,
    .turn .reached false, .reset]).isSome = true ∧ exec State.step Ok initial [.connectCamera,
    .begin, .setAutoFocus, .test, .turn .reached false, .setAutoFocus, .reset] = none := by
  decide

/-! ## The end of a session -/

/-- The steps but the turns in which the lens has not answered. -/
def Settles : Act → Bool
  | .turn status timeout => Breaks timeout status
  | _ => true

/-- The steps that are left to the signal, once the thread has been stopped. -/
def Pc.rank : Pc → ℕ
  | .test => 5
  | .single => 4
  | .told | .poll => 3
  | .top => 2
  | .leaving => 1
  | .left | .gone => 0

lemma rank_le {p q : Pc} (hpc : s.pc = p) (hlt : q.rank < p.rank) (b : Bool) :
    q.rank + b.toNat ≤ s.pc.rank := by
  rw [hpc]
  exact Nat.le_trans (Nat.add_le_add_left (Bool.toNat_le b) _) hlt

/-- A step while `cleanupCamera` waits. -/
lemma waiting_step (h : Inv s) (hwait : s.session = .waiting) (hstep : s.step a = some t) :
    t.session = .closed ∨
      t.session = .waiting ∧ t.pc.rank + (Settles a).toNat ≤ s.pc.rank := by
  cases step_cases hstep with
  | connects hsession => cases hwait.symm.trans hsession
  | calls hsession => cases hwait.symm.trans hsession
  | stops hsession => cases hwait.symm.trans hsession
  | closes hsession => cases hwait.symm.trans hsession
  | waits hsession => cases hwait.symm.trans hsession
  | enters hpc hrun => cases hwait.symm.trans (h.running.mp hrun)
  | ends hpc => exact .inr ⟨hwait, rank_le (q := .leaving) hpc (by decide) _⟩
  | tests hpc hto =>
    obtain rfl | rfl := hto
    · exact .inr ⟨hwait, rank_le (q := .single) hpc (by decide) _⟩
    · exact .inr ⟨hwait, rank_le (q := .poll) hpc (by decide) _⟩
  | answers hpc => exact .inr ⟨hwait, rank_le (q := .told) hpc (by decide) _⟩
  | turns hpc hgoes => exact .inr ⟨hwait, by rw [Settles, hgoes]; exact Nat.le_refl _⟩
  | resets hpc => exact .inr ⟨hwait, rank_le (q := .top) hpc (by decide) _⟩
  | polls hpc hfollows =>
    cases hfollows with
    | leaves => exact .inr ⟨hwait, rank_le (q := .leaving) hpc (by decide) _⟩
    | skips => exact .inr ⟨hwait, rank_le (q := .top) hpc (by decide) _⟩
    | changes => exact .inr ⟨hwait, rank_le (q := .top) hpc (by decide) _⟩
  | leaves hpc hsession =>
    obtain ⟨-, rfl⟩ | ⟨hno, -⟩ := hsession
    · exact .inl rfl
    · exact absurd hwait hno
  | returns hpc => cases (h.awaited hwait).symm.trans (congrArg Pc.ended hpc)

/-- The thread can take a step that settles. -/
lemma exists_settles (h : Inv s) (hwait : s.session = .waiting) :
    ∃ a t, Settles a = true ∧ s.step a = some t := by
  have hended := h.awaited hwait
  cases hpc : s.pc with
  | top => exact ⟨.begin, _, rfl, if_pos hpc⟩
  | test => exact ⟨.test, _, rfl, if_pos hpc⟩
  | single => exact ⟨.turn .reached false, _, rfl, if_pos hpc⟩
  | told => exact ⟨.reset, _, rfl, if_pos hpc⟩
  | poll => exact ⟨.poll .idle, _, rfl, if_pos hpc⟩
  | leaving => exact ⟨.leave, _, rfl, if_pos hpc⟩
  | left => cases hended.symm.trans (congrArg Pc.ended hpc)
  | gone => cases hended.symm.trans (congrArg Pc.ended hpc)

lemma closed_of_settles (as : List Act) : ∀ {s t : State}, Inv s → s.session = .waiting →
    as.foldlM State.step s = some t → s.pc.rank < as.countP Settles →
      ∃ bs u, bs <+: as ∧ bs.foldlM State.step s = some u ∧ u.session = .closed := by
  induction as with
  | nil => exact fun _ _ _ hlt => absurd hlt (Nat.not_lt_zero _)
  | cons a as ih =>
    intro s t h hwait hrun hlt
    rw [List.foldlM_cons] at hrun
    obtain ⟨u, hstep, hrest⟩ := Option.bind_eq_some_iff.mp hrun
    have hbind : ∀ bs : List Act, (a :: bs).foldlM State.step s = bs.foldlM State.step u :=
      fun bs => by rw [List.foldlM_cons, hstep]; rfl
    obtain hclosed | ⟨hwait', hrank⟩ := waiting_step h hwait hstep
    · exact ⟨[a], u, List.prefix_append [a] as, hbind [], hclosed⟩
    · rw [List.countP_cons] at hlt
      have hlt' : u.pc.rank < as.countP Settles := by
        cases hsettles : Settles a <;> rw [hsettles] at hlt hrank <;> simp at hlt hrank <;> omega
      obtain ⟨bs, v, hbs, hrun', hclosed⟩ := ih (inv_step h hstep) hwait' hrest hlt'
      exact ⟨a :: bs, v, List.cons_prefix_cons.mpr ⟨rfl, hbs⟩, (hbind bs).trans hrun', hclosed⟩

/-- `cleanupCamera` returns: while it waits, the thread can go on, and it has been signalled before
the sixth step that is no turn in which the lens has not answered. -/
theorem cleanup_returns (hs : Runs State.step (fun _ _ => True) initial s)
    (hwait : s.session = .waiting) :
    (∃ a t, Settles a = true ∧ s.step a = some t) ∧
      ∀ (as : List Act) (t : State), as.foldlM State.step s = some t → 5 < as.countP Settles →
        ∃ bs u, bs <+: as ∧ bs.foldlM State.step s = some u ∧ u.session = .closed := by
  have hinv : Inv s := Runs.invariant (fun h _ hstep => inv_step h hstep) inv_initial hs
  refine ⟨exists_settles hinv hwait, fun as t hrun hlt => ?_⟩
  refine closed_of_settles as hinv hwait hrun (Nat.lt_of_le_of_lt ?_ hlt)
  cases s.pc <;> decide

/-- The camera is closed while the thread looks at the lens. -/
theorem cleanup_returns_test : ∃ s : State, s.pc = .test ∧ ∃ bs u,
    bs <+: [.test, .poll .idle, .begin, .leave, .finish, .connectCamera] ∧
      bs.foldlM State.step s = some u ∧ u.session = .closed := by
  have hrun : Runs State.step (fun _ _ => True) initial _ :=
    runs_of_foldlM [.connectCamera, .begin, .stop, .check] rfl
  exact ⟨_, rfl, (cleanup_returns hrun rfl).2 _ _ rfl (by decide)⟩

end Softwinner.Camera.AutoFocus

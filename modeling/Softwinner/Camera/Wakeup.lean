import Softwinner.Camera.Accesses
import Softwinner.Camera.Stale
import Softwinner.Framework.Handoff

/-!
# Waking the worker threads

Three threads wait for work: `pictureThread` for pictures of `captureThread`, `commandThread` for
commands of `setParameters`, and `savePictureThread` for pictures of
`CallbackNotifier::takePicture`.  None of these producers takes the mutex of the wait, and
`setParameters` signals only at its end, behind several error returns.

Each pair is an instance of `Framework/Handoff.lean`.  `not_stranded` says when no thread sleeps
on work that it has been given.  The operations of an iteration of `captureThread` are those of the
model of the device, and those of a call are those of the whole `setParameters`.
-/

namespace Softwinner.Camera

open Framework Framework.Handoff

/-! ## The calls -/

/-- `OSAL_Queue` on a queue for `size` elements. -/
def osalQueue {α : Type} (size : ℕ) (a : α) : Op α := .add a fun xs => decide (xs.length < size)

/-- `OSAL_QueueSetElem` on a queue for `size` elements. -/
def osalQueueSetElem {α : Type} [DecidableEq α] (size : ℕ) (a : α) : Op α :=
  .add a fun xs => decide (xs.length < size ∧ xs.head? ≠ some a)

lemma osalQueue_apply {α : Type} (size : ℕ) (a : α) (xs : List α) :
    (osalQueue size a).apply xs = (push size xs a).getD xs := by
  unfold osalQueue Op.apply push
  split_ifs <;> simp_all

/-- What an iteration of `captureThread` depends on. -/
structure CaptureInput where
  mode : TakePictureState
  /-- The preview queue is full. -/
  previewFull : Bool
  frame : Frame
  entry : Entry

/-- An iteration of `captureThread`; only single pictures are signalled to `pictureThread`. -/
def captureOps (x : CaptureInput) : List (Op Entry) :=
  let add := osalQueue pictureQueueSize x.entry
  match x.mode with
  | .null => []
  | .normal => if x.frame.tooLarge then [] else [add, .signal]
  | .fast | .record => if x.previewFull || x.frame.reserved then [] else [add, .signal]
  | .smart => if x.previewFull then [] else [add]
  | .continuous | .continuousFast =>
    if x.previewFull || !x.frame.continuousPictureTime then [] else [add]

/-- What a call of `setParameters` depends on. -/
structure ParametersInput where
  codes : Codes
  cfg : Config
  first : Bool
  current : Params
  request : Request

/-- The operations of an access on the command queue. -/
def Access.op : Access → Option (Op Cmd)
  | .queue cmd => some (osalQueue commandQueueSize cmd)
  | .queueSetElem cmd => some (osalQueueSetElem commandQueueSize cmd)
  | .signal => some .signal
  | _ => none

def setParametersOps (x : ParametersInput) : List (Op Cmd) :=
  (setParameters x.codes x.cfg x.first x.request x.current).1.filterMap Access.op

/-- What a call of `CallbackNotifier::takePicture` depends on. -/
structure TakePictureInput where
  isContinuous : Bool
  /-- There is no buffer for the picture, or it cannot be encoded. -/
  failed : Bool
  snapPath : String
  savePictureCnt : ℤ

/-- `takePicture`; the nodes of `mBufferList` are given by their `id`. -/
def takePictureOps (x : TakePictureInput) : List (Op ℤ) :=
  let push (id : ℤ) : Op ℤ := .add id fun _ => true
  if x.failed then []
  else if x.isContinuous then [push x.savePictureCnt, .signal]
  else if 0 < x.snapPath.length then [push (-1), .signal]
  else []

/-! ## What the calls do -/

lemma queuePicture_queueBufferPicture (s : State) (i : Fin nbBuffer) (k : Kind) :
    ((s.queuePicture i k).getD s).queueBufferPicture =
      (osalQueue pictureQueueSize (s.entry (.buf i) k)).apply s.queueBufferPicture := by
  rw [osalQueue_apply]
  unfold State.queuePicture
  cases push pictureQueueSize s.queueBufferPicture (s.entry (.buf i) k) with
  | none => rfl
  | some q => rfl

lemma queueCopy_queueBufferPicture (s : State) (i : Fin nbBuffer) :
    (s.queueCopy i).queueBufferPicture =
      (osalQueue pictureQueueSize (s.entry .pic .single)).apply s.queueBufferPicture := by
  rw [osalQueue_apply]
  unfold State.queueCopy
  simp only
  have hentry : State.entry { s with
      picBuffer := { s.v4l2buf i with addrPhyY := s.picBuffer.addrPhyY } } .pic .single =
      s.entry .pic .single := rfl
  rw [hentry]
  cases push pictureQueueSize s.queueBufferPicture (s.entry .pic .single) with
  | none => rfl
  | some q => rfl

lemma queueFrame_queueBufferPicture (s : State) (i : Fin nbBuffer) (f : Frame)
    (hnormal : s.takePictureState ≠ .normal) :
    ∃ e, (s.queueFrame i f).queueBufferPicture =
      (captureOps ⟨s.takePictureState, decide (previewQueueSize ≤ s.queueBufferPreview.length), f,
        e⟩).foldl (fun xs op => op.apply xs) s.queueBufferPicture := by
  unfold State.queueFrame
  by_cases hfull : previewQueueSize ≤ s.queueBufferPreview.length
  · have hprev : s.queuePreview i = none := by
      simp [State.queuePreview, push, Nat.not_lt.mpr hfull]
    refine ⟨s.entry .pic .single, ?_⟩
    simp only [hprev, hfull, captureOps, decide_true, Bool.true_or, if_true]
    cases hmode : s.takePictureState with
    | normal => exact absurd hmode hnormal
    | null | fast | record | smart | continuous | continuousFast => rfl
  · have hprev : s.queuePreview i = some { s.addRef i with
        queueBufferPreview := s.queueBufferPreview ++ [s.entry (.buf i) .preview] } := by
      simp [State.queuePreview, push, Nat.lt_of_not_le hfull]
    generalize hs₁ : ({ s.addRef i with queueBufferPreview :=
      s.queueBufferPreview ++ [s.entry (.buf i) .preview] } : State) = s₁ at hprev
    have hmode₁ : s₁.takePictureState = s.takePictureState := by rw [← hs₁]; rfl
    have hqueue₁ : s₁.queueBufferPicture = s.queueBufferPicture := by rw [← hs₁]; rfl
    simp only [hprev, hfull, hmode₁, captureOps, decide_false, Bool.false_or]
    rw [← hqueue₁]
    cases hmode : s.takePictureState with
    | normal => exact absurd hmode hnormal
    | null => exact ⟨s.entry .pic .single, rfl⟩
    | fast | record =>
      refine ⟨s₁.entry (.buf i) .single, ?_⟩
      have hgetD := queuePicture_queueBufferPicture s₁ i .single
      cases f.reserved with
      | true => rfl
      | false =>
        simp only [Bool.false_eq_true, if_false, List.foldl_cons, List.foldl_nil, Op.apply_signal]
        rw [← hgetD]
        cases s₁.queuePicture i .single with
        | none => rfl
        | some s₂ => rfl
    | smart => exact ⟨_, queuePicture_queueBufferPicture s₁ i .smart⟩
    | continuous | continuousFast =>
      refine ⟨s₁.entry (.buf i) .burst, ?_⟩
      have hgetD := queuePicture_queueBufferPicture s₁ i .burst
      cases f.continuousPictureTime with
      | false => rfl
      | true => exact hgetD

/-- The operations of an iteration are what it does to the queue in the model of the device. -/
lemma captureFrame_queueBufferPicture (s : State) (i : Fin nbBuffer) (f : Frame) :
    ∃ e, (s.captureFrame i f).queueBufferPicture =
      (captureOps ⟨s.takePictureState, decide (previewQueueSize ≤ s.queueBufferPreview.length), f,
        e⟩).foldl (fun xs op => op.apply xs) s.queueBufferPicture := by
  unfold State.captureFrame
  by_cases hnormal : s.takePictureState = .normal
  · have hfill : (s.fill i f.addrPhyY).takePictureState = .normal := hnormal
    refine ⟨(s.fill i f.addrPhyY).entry .pic .single, ?_⟩
    simp only [hfill, hnormal, if_true, captureOps]
    cases f.tooLarge with
    | true => rfl
    | false => exact queueCopy_queueBufferPicture _ i
  · have hfill : (s.fill i f.addrPhyY).takePictureState ≠ .normal := hnormal
    simp only [if_neg hfill]
    exact queueFrame_queueBufferPicture _ i f hfill

/-- The parts of a call that go on. -/
def Part.Finishes (p : Part) : Prop :=
  ∀ cur, (p cur).2.isSome → ∃ as, (p cur).1 = as ++ [.signal]

lemma Part.Finishes.seq {q : Part} (hq : q.Finishes) (p : Part) : (p.seq q).Finishes := by
  intro cur hsome
  unfold Part.seq at hsome ⊢
  rcases hp : p cur with ⟨as, _ | cur'⟩
  · simp [hp] at hsome
  · simp only [hp] at hsome ⊢
    obtain ⟨bs, hbs⟩ := hq cur' hsome
    exact ⟨as ++ bs, by rw [hbs, List.append_assoc]⟩

lemma setParameters_finishes (c : Codes) (cfg : Config) (first : Bool) (r : Request) :
    (setParameters c cfg first r).Finishes := by
  have hfinish : finishPart.Finishes := fun cur _ => ⟨[.clearFirst], rfl⟩
  exact ((((((((hfinish.seq _).seq _).seq _).seq _).seq _).seq _).seq _).seq _).seq _

lemma signals_setParameters {x : ParametersInput}
    (h : (setParameters x.codes x.cfg x.first x.request x.current).2.isSome = true ∨
      setParametersOps x = []) : Signals (setParametersOps x) := by
  rcases h with h | h
  · obtain ⟨as, has⟩ := setParameters_finishes x.codes x.cfg x.first x.request x.current h
    rw [setParametersOps, has, List.filterMap_append]
    exact signals_of_last _
  · rw [h]
    exact trivial

lemma signals_takePicture (x : TakePictureInput) : Signals (takePictureOps x) := by
  unfold takePictureOps
  split_ifs
  · exact trivial
  · exact signals_of_last [_]
  · exact signals_of_last [_]
  · exact trivial

lemma signals_capture {x : CaptureInput}
    (h : x.mode ≠ .smart ∧ x.mode ≠ .continuous ∧ x.mode ≠ .continuousFast) :
    Signals (captureOps x) := by
  unfold captureOps
  cases hmode : x.mode with
  | null => exact trivial
  | normal | fast | record =>
    simp only
    split_ifs
    · exact trivial
    · exact signals_of_last [_]
  | smart => exact absurd hmode h.1
  | continuous => exact absurd hmode h.2.1
  | continuousFast => exact absurd hmode h.2.2

/-! ## The pairs -/

/-- `pictureThread` dequeues, and runs for ever. -/
def pictureActs : Handoff.Act CaptureInput → Bool
  | .test | .pop | .exit => false
  | _ => true

/-- `commandThread` dequeues. -/
def commandActs : Handoff.Act ParametersInput → Bool
  | .test | .pop => false
  | _ => true

/-- `savePictureThread` tests the list, and takes from it later. -/
def saveActs : Handoff.Act TakePictureInput → Bool
  | .dequeue => false
  | _ => true

/-- The frame is for `pictureThread`, if it is a picture. -/
def CaptureInput.Single (x : CaptureInput) : Prop :=
  x.mode ≠ .smart ∧ x.mode ≠ .continuous ∧ x.mode ≠ .continuousFast

/-- The call of `setParameters` succeeds, or fails before it has queued anything. -/
def ParametersInput.NoLateError (x : ParametersInput) : Prop :=
  (setParameters x.codes x.cfg x.first x.request x.current).2.isSome = true ∨
    setParametersOps x = []

/-- **No lost wake-up.**  In each pair: when no signal is given between the test of the consumer
and its wait for something that was queued in between, when only single pictures are requested,
and when `setParameters` does not fail behind a command that it has queued, no consumer sleeps on
an element whose call has returned.  The calls are those of the device and of the whole
`setParameters`, whose accesses also give its queue. -/
theorem not_stranded (picture : Handoff.State Entry) (command : Handoff.State Cmd)
    (save : Handoff.State ℤ) :
    (Runs (Handoff.State.step captureOps)
      (fun a s => pictureActs a = true ∧ TimelyOk CaptureInput.Single a s) .start picture →
        ¬ picture.Stranded) ∧
    (Runs (Handoff.State.step setParametersOps)
      (fun a s => commandActs a = true ∧ TimelyOk ParametersInput.NoLateError a s) .start command →
        ¬ command.Stranded) ∧
    (Runs (Handoff.State.step takePictureOps)
      (fun a s => saveActs a = true ∧ TimelyOk (fun _ => True) a s) .start save →
        ¬ save.Stranded) ∧
    (∀ (s : State) (i : Fin nbBuffer) (f : Frame), ∃ e,
      (s.captureFrame i f).queueBufferPicture =
        (captureOps ⟨s.takePictureState, decide (previewQueueSize ≤ s.queueBufferPreview.length), f,
          e⟩).foldl (fun xs op => op.apply xs) s.queueBufferPicture) ∧
    ∀ (e : SetParameters.Env) (r : SetParameters.Parameters) (s s' : SetParameters.State) (ret : ℤ),
      SetParameters.Stores e r → SetParameters.setParameters e r s = some (ret, s') →
        (∃ req, SetParameters.Describes e r s req) ∧
        (∀ req, SetParameters.Describes e r s req →
          setParametersOps ⟨e.codes, e.config, s.first, e.view s.params, req⟩ =
            (SetParameters.runAccesses e r SetParameters.Stage.all s).filterMap Access.op) ∧
        s'.queue = (SetParameters.runAccesses e r SetParameters.Stage.all s).foldl
          SetParameters.enqueue s.queue := by
  refine ⟨fun hrun => ?_, fun hrun => ?_, fun hrun => ?_, captureFrame_queueBufferPicture,
    fun e r s s' ret hlib hrun => ⟨SetParameters.exists_describes e r s, fun req hreq => ?_,
      SetParameters.queue_runAccesses hrun⟩⟩
  · exact not_stranded_of_run (fun _ hx => signals_capture hx) (fun _ _ h => h.2) hrun
  · exact not_stranded_of_run (fun _ hx => signals_setParameters hx) (fun _ _ h => h.2) hrun
  · exact not_stranded_of_run (fun x _ => signals_takePicture x) (fun _ _ h => h.2) hrun
  · exact congrArg (fun x => x.1.filterMap Access.op)
      (SetParameters.setParameters_accesses hreq hlib hrun)

/-- `savePictureThread` sleeps until the signal of the first picture comes. -/
theorem not_stranded_saved :
    ∃ t, Runs (Handoff.State.step takePictureOps)
      (fun a s => saveActs a = true ∧ TimelyOk (fun _ => True) a s) .start t ∧
      t.finished = 1 ∧ t.consumer = .running ∧ t.queue = [(0, 0)] ∧ ¬ t.Stranded := by
  have hrun : Runs (Handoff.State.step takePictureOps)
      (fun a s => saveActs a = true ∧ TimelyOk (fun _ => True) a s) .start
      ⟨[(0, 0)], .running, none, 1⟩ := by
    refine (((((Relation.ReflTransGen.single ⟨.test, ⟨rfl, trivial⟩, rfl⟩).tail
      ⟨.wait, ⟨rfl, trivial⟩, rfl⟩).tail
      ⟨.call ⟨true, false, "", 0⟩, ⟨rfl, trivial⟩, rfl⟩).tail
      ⟨.operate, ⟨rfl, ?_⟩, rfl⟩).tail
      ⟨.operate, ⟨rfl, ?_⟩, rfl⟩).tail
      ⟨.finishCall, ⟨rfl, trivial⟩, rfl⟩
    · exact fun _ hc => nomatch hc
    · exact fun _ hc => nomatch hc
  exact ⟨_, hrun, rfl, rfl, rfl, (not_stranded .start .start _).2.2.1 hrun⟩

/-- Each pair can strand work: `pictureThread` and `savePictureThread` when queueing and signal
fall between their test and their wait, `commandThread` moreover when `setParameters` queues an
effect and then refuses the exposure compensation. -/
theorem stranded :
    (∃ t, Runs (Handoff.State.step captureOps) (fun a _ => pictureActs a = true) .start t ∧
      t.Stranded) ∧
    (∃ t, Runs (Handoff.State.step setParametersOps) (fun a _ => commandActs a = true) .start t ∧
      t.Stranded) ∧
    ∃ t, Runs (Handoff.State.step takePictureOps) (fun a _ => saveActs a = true) .start t ∧
      t.Stranded := by
  let codes : Codes := ⟨0, 1, 2, 7, 3, 1, 6, 8, 4, 2, 3, 0, 3, 1, 2, 4⟩
  let defaults : Params := ⟨some "none", some "auto", 0, 3, -3, "off", 0, 10, "auto", "(0,0,0,0,0)"⟩
  let request : Request :=
    ⟨{ defaults with exposureCompensation := 4 }, true, false, true, true, true⟩
  refine ⟨?_, ?_, ?_⟩
  · exact exists_runs _ _ Handoff.State.Stranded
      [.call ⟨.fast, false, ⟨1, false, false, false⟩, ⟨.pic, .single, 1, 1⟩⟩, .dequeue, .operate,
        .operate, .finishCall, .wait] (by decide +kernel)
  · exact exists_runs _ _ Handoff.State.Stranded
      [.dequeue, .wait, .call ⟨codes, ⟨true, true, true, true, true⟩, true, defaults, request⟩,
        .operate, .operate, .finishCall] (by decide +kernel)
  · exact exists_runs _ _ Handoff.State.Stranded
      [.call ⟨true, false, "", 0⟩, .test, .operate, .operate, .finishCall, .wait]
      (by decide +kernel)

end Softwinner.Camera

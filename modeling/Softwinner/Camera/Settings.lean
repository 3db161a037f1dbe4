import Mathlib.Data.Int.Notation
import Mathlib.Logic.Function.Basic
import Mathlib.Tactic.SplitIfs
import Softwinner.Camera.Parameters
import Softwinner.Framework.Runs

/-!
# From `setParameters` to the device

`setParameters` and `commandThread`, access by access.  The image effect, the white balance, the
exposure compensation and the flash mode go through `mQueueElement`, which has one element for each
command; the queue holds pointers.  `setParameters` overwrites an element whose pointer may still
be queued, and does not look at the result of `OSAL_Queue`.

`settled_of_run`: as long as no element is overwritten with another value before it is read, and
only values are refused that the device has anyway, every command is executed with the value it was
queued with, and the device has the recorded settings once the queue is empty.

`setParameters` is called by one thread at a time.
-/

namespace Softwinner.Camera.Settings

open Framework

/-! ## State -/

/-- Where `commandThread` is.  `queued` is what the element held when it was queued; the code does
not keep it. -/
inductive Thread
  /-- In front of `OSAL_Dequeue`, or waiting. -/
  | idle
  /-- Behind `OSAL_Dequeue`, in front of the access to `queue->data`. -/
  | got (cmd : Cmd) (queued : ℤ)
  /-- In front of the call of the device. -/
  | read (cmd : Cmd) (queued data : ℤ)
  deriving DecidableEq

structure State where
  /-- `mParameters`. -/
  params : Params
  /-- `mFirstSetParameters`. -/
  first : Bool
  /-- `mQueueElement[cmd].data`. -/
  data : Cmd → ℤ
  /-- `mQueueCommand`: the commands, each with what its element held when it was queued. -/
  queue : List (Cmd × ℤ)
  thread : Thread
  /-- What a call of `setParameters` has still to do. -/
  call : List Access
  /-- The last value given to the device. -/
  given : Cmd → Option ℤ
  /-- The commands that have been executed: what was queued and what was used. -/
  executed : List (Cmd × ℤ × ℤ)

/-- Before the first call. -/
def init (params : Params) (data : Cmd → ℤ) : State :=
  ⟨params, true, data, [], .idle, [], fun _ => none, []⟩

/-- The settings that the device is given by value. -/
def supports (cfg : Config) : Cmd → Bool
  | .setColorEffect => cfg.colorEffect
  | .setWhiteBalance => cfg.whiteBalance
  | .setExposureCompensation => cfg.exposureCompensation
  | .setFlashMode => cfg.flashMode
  | .setFocusMode | .stopContinuousSnap => false

/-- The commands for which `commandThread` uses the element. -/
def byValue : Cmd → Bool
  | .setFocusMode | .stopContinuousSnap => false
  | _ => true

/-- What the parameters say about a setting. -/
def value (c : Codes) (p : Params) : Cmd → Option ℤ
  | .setColorEffect => p.effect.map c.imageEffect
  | .setWhiteBalance => p.whiteBalance.map c.white
  | .setExposureCompensation => some p.exposureCompensation
  | .setFlashMode => some (c.flash p.flashMode)
  | .setFocusMode | .stopContinuousSnap => none

/-- The supported effect, white balance and flash mode are known ones; the exposure compensation is
checked by `setParameters`. -/
def Valid (c : Codes) (cfg : Config) (p : Params) : Prop :=
  ∀ cmd ∈ [Cmd.setColorEffect, .setWhiteBalance, .setFlashMode], supports cfg cmd = true →
    (value c p cmd).any (0 ≤ ·) = true

instance (c : Codes) (cfg : Config) (p : Params) : Decidable (Valid c cfg p) :=
  inferInstanceAs (Decidable (∀ cmd ∈ [Cmd.setColorEffect, .setWhiteBalance, .setFlashMode], _))

/-! ## Steps -/

namespace State

variable (s : State)

def perform : Access → State
  | .setParam p => { s with params := p }
  | .setData cmd v => { s with data := Function.update s.data cmd v }
  | .queue cmd => { s with queue := (push commandQueueSize s.queue (cmd, s.data cmd)).getD s.queue }
  | .queueSetElem cmd =>
    if s.queue.head?.map Prod.fst = some cmd then s
    else { s with queue := (push commandQueueSize s.queue (cmd, s.data cmd)).getD s.queue }
  | .clearFirst => { s with first := false }
  | .signal => s

/-- The device is called. -/
def give (cmd : Cmd) (queued data : ℤ) : State :=
  if byValue cmd then { s with
    thread := .idle, given := Function.update s.given cmd (some data),
    executed := (cmd, queued, data) :: s.executed }
  else { s with thread := .idle }

end State

inductive Act
  /-- A call that is going to return `NO_ERROR`. -/
  | setParameters (r : Request)
  /-- The next access of the call. -/
  | access
  | dequeue
  | readData
  | give

def step (c : Codes) (cfg : Config) (s : State) : Act → Option State
  | .setParameters r =>
    if s.call = [] ∧ Valid c cfg r.params then
      match Camera.setParameters c cfg s.first r s.params with
      | (_, none) => none
      | (as, some _) => some { s with call := as }
    else none
  | .access =>
    match s.call with
    | [] => none
    | a :: as => some { s.perform a with call := as }
  | .dequeue =>
    match s.thread, s.queue with
    | .idle, (cmd, w) :: q => some { s with thread := .got cmd w, queue := q }
    | _, _ => none
  | .readData =>
    match s.thread with
    | .got cmd w => some { s with thread := .read cmd w (s.data cmd) }
    | _ => none
  | .give =>
    match s.thread with
    | .read cmd w v => some (s.give cmd w v)
    | _ => none

/-- On the commands alone, the accesses to the queue are those of `OSAL_Queue.c`. -/
lemma perform_queue_commands (s : State) (cmd : Cmd) :
    (s.perform (.queue cmd)).queue.map Prod.fst =
        (push commandQueueSize (s.queue.map Prod.fst) cmd).getD (s.queue.map Prod.fst) ∧
      (s.perform (.queueSetElem cmd)).queue.map Prod.fst =
        (pushNew commandQueueSize (s.queue.map Prod.fst) cmd).getD (s.queue.map Prod.fst) := by
  unfold State.perform push pushNew
  simp only [List.length_map, List.head?_map]
  constructor
  · split_ifs with hlt
    · simp
    · simp
  · split_ifs with hhead hlt hlt
    · simp
    · simp
    · simp
    · simp

/-! ## What is asked for -/

/-- Each command was executed with the value it was queued with. -/
def ExecutedRight (s : State) : Prop := ∀ e ∈ s.executed, e.2.1 = e.2.2

/-- `setParameters` has recorded the setting, and is about to queue it.  The flash mode is recorded
twice. -/
def inBlock : List Access → Cmd → Bool
  | .setData cmd _ :: _, k => cmd = k
  | .queue cmd :: _, k => cmd = k
  | .setParam _ :: .setData .setFlashMode _ :: _, k => k = .setFlashMode
  | _, _ => false

/-- The device has been given what is recorded; before the end of the first call, it may not have
been given anything. -/
def Agrees (c : Codes) (s : State) (cmd : Cmd) : Prop :=
  match s.given cmd with
  | some v => value c s.params cmd = some v
  | none => s.first = true

/-- With the queue empty and `commandThread` idle, the device agrees with `mParameters`. -/
def Settled (c : Codes) (cfg : Config) (s : State) : Prop :=
  s.queue = [] → s.thread = .idle → ∀ cmd, supports cfg cmd = true → inBlock s.call cmd = false →
    Agrees c s cmd

/-! ## The condition -/

namespace State

variable (s : State)

/-- The commands whose element has still to be read. -/
def waiting : List (Cmd × ℤ) :=
  match s.thread with
  | .got cmd w => (cmd, w) :: s.queue
  | _ => s.queue

/-- What the device has been given last, counting what has been read. -/
def delivered (cmd : Cmd) : Option ℤ :=
  match s.thread with
  | .read k _ v => if k = cmd then some v else s.given cmd
  | _ => s.given cmd

/-- What the device will have been given last when `commandThread` has done all its work. -/
def eventual (cmd : Cmd) : Option ℤ :=
  if cmd ∈ s.waiting.map Prod.fst then some (s.data cmd) else s.delivered cmd

/-- An element is not overwritten with another value while it is waiting, and a command that is
given by value is refused only if the device gets its value anyway. -/
def Fresh : Access → Prop
  | .setData cmd v => ∀ e ∈ s.waiting, e.1 = cmd → e.2 = v
  | .queue cmd => byValue cmd = true →
    s.queue.length < commandQueueSize ∨ s.eventual cmd = some (s.data cmd)
  | _ => True

instance : ∀ a, Decidable (s.Fresh a)
  | .setData cmd v => inferInstanceAs (Decidable (∀ e ∈ s.waiting, e.1 = cmd → e.2 = v))
  | .queue cmd => inferInstanceAs (Decidable (byValue cmd = true →
      s.queue.length < _ ∨ s.eventual cmd = some (s.data cmd)))
  | .setParam _ | .queueSetElem _ | .clearFirst | .signal => inferInstanceAs (Decidable True)

end State

/-- The accesses of `setParameters` are fresh. -/
def Ok : Act → State → Prop
  | .access, s => ∀ a ∈ s.call.head?, s.Fresh a
  | _, _ => True

instance : ∀ a s, Decidable (Ok a s)
  | .access, s => inferInstanceAs (Decidable (∀ a ∈ s.call.head?, s.Fresh a))
  | .setParameters _, _ | .dequeue, _ | .readData, _ | .give, _ =>
    inferInstanceAs (Decidable True)

/-! ## The shape of a call -/

/-- A setting that has been recorded goes into its element, and from there into the queue. -/
inductive Mode
  | free
  | recorded (cmd : Cmd) (v : ℤ)
  /-- The element holds the value. -/
  | ready (cmd : Cmd) (v : ℤ)

def Mode.cmd : Mode → Option Cmd
  | .free => none
  | .recorded cmd _ => some cmd
  | .ready cmd _ => some cmd

/-- What is left of a call, from `mParameters` on. -/
inductive Script (c : Codes) : Mode → Params → List Access → Prop
  | nil {p} : Script c .free p []
  | signal {p} : Script c .free p [.signal]
  | finish {p} : Script c .free p [.clearFirst, .signal]
  | keep {p p' as} (hsame : ∀ k, value c p' k = value c p k) (hrest : Script c .free p' as) :
    Script c .free p (.setParam p' :: as)
  | focus {p as} (hrest : Script c .free p as) :
    Script c .free p (.queueSetElem .setFocusMode :: as)
  | stop {p as} (hrest : Script c .free p as) :
    Script c .free p (.queue .stopContinuousSnap :: as)
  | record {p p' as cmd v} (hsame : ∀ k ≠ cmd, value c p' k = value c p k)
    (hrest : Script c (.recorded cmd v) p' as) : Script c .free p (.setParam p' :: as)
  | again {p p' as v} (hsame : ∀ k, value c p' k = value c p k)
    (hrest : Script c (.recorded .setFlashMode v) p' (.setData .setFlashMode v :: as)) :
    Script c (.recorded .setFlashMode v) p (.setParam p' :: .setData .setFlashMode v :: as)
  | setData {p as cmd v} (hrest : Script c (.ready cmd v) p as) :
    Script c (.recorded cmd v) p (.setData cmd v :: as)
  | queue {p as cmd v} (hvalue : value c p cmd = some v) (hrest : Script c .free p as) :
    Script c (.ready cmd v) p (.queue cmd :: as)

variable {c : Codes} {cfg : Config} {s s' : State} {m : Mode} {p p' : Params} {as : List Access}
  {cmd : Cmd} {w v : ℤ}

lemma Script.inBlock_of_cmd (hscript : Script c m p as) (hcmd : m.cmd = some cmd) :
    inBlock as cmd = true := by
  cases hscript with
  | nil | signal | finish | keep | focus | stop | record => cases hcmd
  | again =>
    obtain rfl := Option.some.inj hcmd
    rfl
  | setData | queue =>
    obtain rfl := Option.some.inj hcmd
    simp [inBlock]

/-- A recorded setting on its way to the queue. -/
lemma Script.send (hsame : ∀ k ≠ cmd, value c p' k = value c p k) (hvalue : value c p' cmd = some v)
    (hrest : Script c .free p' as) :
    Script c .free p ((Part.send cmd v p').1 ++ as) :=
  .record hsame (.setData (.queue hvalue hrest))

/-! ### The parts of `setParameters` -/

/-- A part that can stand in a call. -/
def Scripted (c : Codes) (P : Part) : Prop :=
  ∀ (p p' : Params) (as rest : List Access), P p = (as, some p') → Script c .free p' rest →
    Script c .free p (as ++ rest)

/-- A part that can end a call. -/
def Complete (c : Codes) (P : Part) : Prop :=
  ∀ (p p' : Params) (as : List Access), P p = (as, some p') → Script c .free p as

/-- A part that queues a command. -/
def Queues (cmd : Cmd) (P : Part) : Prop :=
  ∀ (p p' : Params) (as : List Access), P p = (as, some p') → .queue cmd ∈ as

lemma part_inj {as as' : List Access} (hpart : (as, some p) = (as', some p')) :
    as = as' ∧ p = p' :=
  ⟨congrArg Prod.fst hpart, Option.some.inj (congrArg Prod.snd hpart)⟩

lemma part_ne {as as' : List Access} : (as, none) ≠ (as', some p) :=
  fun hpart => nomatch congrArg Prod.snd hpart

lemma mem_send : .queue cmd ∈ (Part.send cmd v p).1 := by
  simp [Part.send]

lemma seq_eq_some {P Q : Part} (hseq : (P.seq Q) p = (as, some p')) :
    ∃ as₁ q as₂, P p = (as₁, some q) ∧ Q q = (as₂, some p') ∧ as = as₁ ++ as₂ := by
  unfold Part.seq at hseq
  split at hseq
  next => exact absurd hseq part_ne
  next as₁ q hP =>
    have hQ : (Q q).2 = some p' := congrArg Prod.snd hseq
    exact ⟨as₁, q, (Q q).1, hP, by rw [← hQ], (congrArg Prod.fst hseq).symm⟩

lemma Scripted.seq {P Q : Part} (hP : Scripted c P) (hQ : Complete c Q) :
    Complete c (P.seq Q) := by
  intro p p' as hseq
  obtain ⟨as₁, q, as₂, hp, hq, rfl⟩ := seq_eq_some hseq
  exact hP _ _ _ _ hp (hQ _ _ _ hq)

lemma Queues.seq_left {P Q : Part} (hP : Queues cmd P) : Queues cmd (P.seq Q) := by
  intro p p' as hseq
  obtain ⟨as₁, q, as₂, hp, -, rfl⟩ := seq_eq_some hseq
  exact List.mem_append_left _ (hP _ _ _ hp)

lemma Queues.seq_right {P Q : Part} (hQ : Queues cmd Q) : Queues cmd (P.seq Q) := by
  intro p p' as hseq
  obtain ⟨as₁, q, as₂, -, hq, rfl⟩ := seq_eq_some hseq
  exact List.mem_append_right _ (hQ _ _ _ hq)

section Parts

variable {first : Bool} {r : Request}

lemma scripted_changedPart {supported : Bool} {code : String → ℤ} {new : Option String}
    {now : Params → Option String} {set : Params → String → Params}
    (hsame : ∀ p str, ∀ k ≠ cmd, value c (set p str) k = value c p k)
    (hvalue : ∀ p str, value c (set p str) cmd = some (code str)) :
    Scripted c (changedPart first supported cmd code new now set) := by
  intro p p' as rest hpart hrest
  unfold changedPart at hpart
  split at hpart
  next =>
    obtain ⟨rfl, rfl⟩ := part_inj hpart
    exact hrest
  next str =>
    split_ifs at hpart with hsend
    · obtain ⟨rfl, rfl⟩ := part_inj hpart
      exact Script.send (hsame p str) (hvalue p str) hrest
    · obtain ⟨rfl, rfl⟩ := part_inj hpart
      exact hrest

lemma queues_changedPart {supported : Bool} {code : String → ℤ} {new : Option String}
    {now : Params → Option String} {set : Params → String → Params}
    (hsupported : supported = true) (hnew : (new.map code).any (0 ≤ ·) = true) :
    Queues cmd (changedPart true supported cmd code new now set) := by
  intro p p' as hpart
  cases new with
  | none => cases hnew
  | some str =>
    have hcode : 0 ≤ code str := by simpa using hnew
    simp only [changedPart, hsupported, hcode, true_or, and_self, if_true] at hpart
    obtain ⟨rfl, -⟩ := part_inj hpart
    exact mem_send

lemma scripted_exposureCompensationPart : Scripted c (exposureCompensationPart cfg first r) := by
  intro p p' as rest hpart hrest
  unfold exposureCompensationPart at hpart
  simp only at hpart
  split_ifs at hpart with hsupported hrange hsend
  · obtain ⟨rfl, rfl⟩ := part_inj hpart
    exact hrest
  · obtain ⟨rfl, rfl⟩ := part_inj hpart
    refine Script.send (fun k hk => ?_) rfl hrest
    cases k with
    | setExposureCompensation => exact absurd rfl hk
    | setColorEffect | setWhiteBalance | setFlashMode | setFocusMode | stopContinuousSnap => rfl
  · obtain ⟨rfl, rfl⟩ := part_inj hpart
    exact hrest
  · exact absurd hpart part_ne

lemma queues_exposureCompensationPart (hsupported : cfg.exposureCompensation = true) :
    Queues .setExposureCompensation (exposureCompensationPart cfg true r) := by
  intro p p' as hpart
  unfold exposureCompensationPart at hpart
  simp only [hsupported, true_or, if_true, Bool.true_eq_false, if_false] at hpart
  split_ifs at hpart with hrange
  · obtain ⟨rfl, -⟩ := part_inj hpart
    exact mem_send
  · exact absurd hpart part_ne

lemma scripted_flashModePart (hvalid : cfg.flashMode = true → 0 ≤ c.flash r.params.flashMode) :
    Scripted c (flashModePart c cfg r) := by
  intro p p' as rest hpart hrest
  unfold flashModePart at hpart
  simp only at hpart
  split_ifs at hpart with hsupported hcode
  · obtain ⟨rfl, rfl⟩ := part_inj hpart
    exact hrest
  · obtain ⟨rfl, rfl⟩ := part_inj hpart
    refine .record (fun k hk => ?_) (.again (fun _ => rfl) (.setData (.queue rfl hrest)))
    cases k with
    | setFlashMode => exact absurd rfl hk
    | setColorEffect | setWhiteBalance | setExposureCompensation | setFocusMode
    | stopContinuousSnap => rfl
  · exact absurd (hvalid (by simpa using hsupported)) hcode

lemma queues_flashModePart (hsupported : cfg.flashMode = true)
    (hvalid : 0 ≤ c.flash r.params.flashMode) : Queues .setFlashMode (flashModePart c cfg r) := by
  intro p p' as hpart
  unfold flashModePart at hpart
  simp only [hsupported, hvalid, if_true, Bool.true_eq_false, if_false] at hpart
  obtain ⟨rfl, -⟩ := part_inj hpart
  exact List.mem_cons_of_mem _ mem_send

lemma value_eq {p p' : Params} (heffect : p'.effect = p.effect)
    (hwhite : p'.whiteBalance = p.whiteBalance)
    (hexposure : p'.exposureCompensation = p.exposureCompensation)
    (hflash : p'.flashMode = p.flashMode) (k : Cmd) : value c p' k = value c p k := by
  cases k with
  | setColorEffect => exact congrArg (Option.map c.imageEffect) heffect
  | setWhiteBalance => exact congrArg (Option.map c.white) hwhite
  | setExposureCompensation => exact congrArg some hexposure
  | setFlashMode => exact congrArg (fun str => some (c.flash str)) hflash
  | setFocusMode | stopContinuousSnap => rfl

lemma scripted_zoomPart : Scripted c (zoomPart r) := by
  intro p p' as rest hpart hrest
  unfold zoomPart at hpart
  split_ifs at hpart with hzoom
  · obtain ⟨rfl, rfl⟩ := part_inj hpart
    exact .keep (value_eq rfl rfl rfl rfl) hrest
  · exact absurd hpart part_ne

lemma scripted_focusPart : Scripted c (focusPart cfg first r) := by
  intro p p' as rest hpart hrest
  unfold focusPart at hpart
  simp only at hpart
  split_ifs at hpart with hsupported hcheck hmode hareas hareas hfixed
  · exact absurd hpart part_ne
  · obtain ⟨rfl, rfl⟩ := part_inj hpart
    exact .keep (value_eq rfl rfl rfl rfl) (.focus (.keep (value_eq rfl rfl rfl rfl) hrest))
  · obtain ⟨rfl, rfl⟩ := part_inj hpart
    exact .keep (value_eq rfl rfl rfl rfl) (.focus hrest)
  · obtain ⟨rfl, rfl⟩ := part_inj hpart
    exact .keep (value_eq rfl rfl rfl rfl) hrest
  · obtain ⟨rfl, rfl⟩ := part_inj hpart
    exact hrest
  · obtain ⟨rfl, rfl⟩ := part_inj hpart
    exact .keep (value_eq rfl rfl rfl rfl) hrest
  · exact absurd hpart part_ne

lemma scripted_devicePart : Scripted c (devicePart r) := by
  intro p p' as rest hpart hrest
  unfold devicePart at hpart
  split_ifs at hpart
  · obtain ⟨rfl, rfl⟩ := part_inj hpart
    exact hrest
  · exact absurd hpart part_ne

lemma scripted_stopContinuousPart : Scripted c (stopContinuousPart r) := by
  intro p p' as rest hpart hrest
  unfold stopContinuousPart at hpart
  split_ifs at hpart
  · obtain ⟨rfl, rfl⟩ := part_inj hpart
    exact .stop hrest
  · obtain ⟨rfl, rfl⟩ := part_inj hpart
    exact hrest

lemma scripted_acceptedPart : Scripted c (acceptedPart r) := by
  intro p p' as rest hpart hrest
  unfold acceptedPart at hpart
  split_ifs at hpart
  · obtain ⟨rfl, rfl⟩ := part_inj hpart
    exact hrest
  · exact absurd hpart part_ne

lemma complete_finishPart : Complete c finishPart := by
  intro p p' as hpart
  obtain ⟨rfl, -⟩ := part_inj hpart
  exact .finish

lemma Valid.flash (hvalid : Valid c cfg p) (hsupported : cfg.flashMode = true) :
    0 ≤ c.flash p.flashMode := by
  simpa [value] using hvalid .setFlashMode (by simp) hsupported

/-- A call with valid settings is well formed. -/
lemma complete_setParameters (hvalid : Valid c cfg r.params) :
    Complete c (setParameters c cfg first r) := by
  have heffect : Scripted c (imageEffectPart c cfg first r) := by
    refine scripted_changedPart (fun p str k hk => ?_) (fun p str => rfl)
    cases k with
    | setColorEffect => exact absurd rfl hk
    | setWhiteBalance | setExposureCompensation | setFlashMode | setFocusMode
    | stopContinuousSnap => rfl
  have hwhite : Scripted c (whiteBalancePart c cfg first r) := by
    refine scripted_changedPart (fun p str k hk => ?_) (fun p str => rfl)
    cases k with
    | setWhiteBalance => exact absurd rfl hk
    | setColorEffect | setExposureCompensation | setFlashMode | setFocusMode
    | stopContinuousSnap => rfl
  exact scripted_devicePart.seq <| scripted_stopContinuousPart.seq <| scripted_acceptedPart.seq <|
    heffect.seq <| hwhite.seq <| scripted_exposureCompensationPart.seq <|
    (scripted_flashModePart hvalid.flash).seq <| scripted_zoomPart.seq <|
    scripted_focusPart.seq complete_finishPart

/-- The first call queues all settings. -/
lemma queues_setParameters (hvalid : Valid c cfg r.params) (hsupported : supports cfg cmd = true) :
    Queues cmd (setParameters c cfg true r) := by
  refine Queues.seq_right (Queues.seq_right (Queues.seq_right ?_))
  cases cmd with
  | setColorEffect =>
    exact (queues_changedPart hsupported (hvalid _ (by simp) hsupported)).seq_left
  | setWhiteBalance =>
    exact (queues_changedPart hsupported (hvalid _ (by simp) hsupported)).seq_left.seq_right
  | setExposureCompensation =>
    exact (queues_exposureCompensationPart hsupported).seq_left.seq_right.seq_right
  | setFlashMode =>
    have hflash := queues_flashModePart hsupported (hvalid.flash hsupported)
    exact hflash.seq_left.seq_right.seq_right.seq_right
  | setFocusMode | stopContinuousSnap => cases hsupported

end Parts

/-! ## What `commandThread` does not change -/

lemma eventual_congr {k : Cmd}
    (hmem : k ∈ s'.waiting.map Prod.fst ↔ k ∈ s.waiting.map Prod.fst)
    (hdata : k ∈ s.waiting.map Prod.fst → s'.data k = s.data k)
    (hdelivered : k ∉ s.waiting.map Prod.fst → s'.delivered k = s.delivered k) :
    s'.eventual k = s.eventual k := by
  unfold State.eventual
  by_cases hk : k ∈ s.waiting.map Prod.fst
  · rw [if_pos hk, if_pos (hmem.mpr hk), hdata hk]
  · rw [if_neg hk, if_neg (fun hk' => hk (hmem.mp hk')), hdelivered hk]

lemma eventual_of_not_mem {k : Cmd} (hk : k ∉ s.waiting.map Prod.fst) :
    s.eventual k = s.delivered k := if_neg hk

lemma eventual_readData (hthread : s.thread = .got cmd w) (k : Cmd) :
    State.eventual { s with thread := .read cmd w (s.data cmd) } k = s.eventual k := by
  by_cases hk : k = cmd
  · subst hk
    have hmem : k ∈ s.waiting.map Prod.fst := by simp [State.waiting, hthread]
    rw [State.eventual, State.eventual, if_pos hmem]
    split_ifs
    · rfl
    · simp [State.delivered]
  · refine eventual_congr ?_ (fun _ => rfl) (fun _ => ?_)
    · simp [State.waiting, hthread, hk]
    · simp [State.delivered, hthread, Ne.symm hk]

lemma eventual_give (hthread : s.thread = .read cmd w v) {k : Cmd} (hk : byValue k = true) :
    (s.give cmd w v).eventual k = s.eventual k := by
  unfold State.give
  split_ifs with hvalue
  · refine eventual_congr ?_ (fun _ => rfl) (fun _ => ?_)
    · simp [State.waiting, hthread]
    · simp [State.delivered, hthread, Function.update_apply, eq_comm]
  · have hne : cmd ≠ k := fun heq => hvalue (heq ▸ hk)
    refine eventual_congr ?_ (fun _ => rfl) (fun _ => ?_)
    · simp [State.waiting, hthread]
    · simp [State.delivered, hthread, hne]

/-! ## What an access does -/

lemma waiting_enqueue (s : State) (e : Cmd × ℤ) :
    State.waiting { s with queue := s.queue ++ [e] } = s.waiting ++ [e] := by
  unfold State.waiting
  split <;> simp_all

lemma perform_queueSetElem (s : State) (cmd : Cmd) :
    s.perform (.queueSetElem cmd) = s ∨
      s.perform (.queueSetElem cmd) = s.perform (.queue cmd) :=
  ite_eq_or_eq _ _ _

lemma mem_waiting_queue {e : Cmd × ℤ} (he : e ∈ (s.perform (.queue cmd)).waiting) :
    e ∈ s.waiting ∨ e = (cmd, s.data cmd) := by
  simp only [State.perform, push] at he
  split_ifs at he with hlt
  · simpa [waiting_enqueue] using he
  · exact Or.inl he

/-- A queued value will be given to the device. -/
lemma eventual_queue (hfresh : s.Fresh (.queue cmd)) (hcmd : byValue cmd = true) :
    (s.perform (.queue cmd)).eventual cmd = some (s.data cmd) := by
  simp only [State.perform, push]
  split_ifs with hlt
  · exact if_pos (by simp [waiting_enqueue])
  · exact (hfresh hcmd).resolve_left hlt

lemma eventual_queue_of_ne {k : Cmd} (hk : k ≠ cmd) :
    (s.perform (.queue cmd)).eventual k = s.eventual k := by
  simp only [State.perform, push]
  split_ifs with hlt
  · refine eventual_congr ?_ (fun _ => rfl) (fun _ => rfl)
    simp [waiting_enqueue, hk]
  · rfl

lemma eventual_setData_of_ne {k : Cmd} (hk : k ≠ cmd) :
    (s.perform (.setData cmd v)).eventual k = s.eventual k :=
  eventual_congr Iff.rfl (fun _ => by simp [State.perform, hk]) (fun _ => rfl)

lemma eventual_setData_ne_none {k : Cmd} (hk : s.eventual k ≠ none) :
    (s.perform (.setData cmd v)).eventual k ≠ none := by
  by_cases hmem : k ∈ s.waiting.map Prod.fst
  · have hsome : (s.perform (.setData cmd v)).eventual k = some _ := if_pos hmem
    rw [hsome]
    exact nofun
  · have hsame : (s.perform (.setData cmd v)).eventual k = s.eventual k :=
      eventual_congr Iff.rfl (fun h => absurd h hmem) (fun _ => rfl)
    rwa [hsame]

/-! ## The invariant -/

structure Inv (c : Codes) (cfg : Config) (m : Mode) (s : State) : Prop where
  script : Script c m s.params s.call
  ready : ∀ cmd v, m = .ready cmd v → s.data cmd = v
  /-- All work done, the device has what is recorded, but for the setting on its way. -/
  recorded : ∀ cmd v, supports cfg cmd = true → m.cmd ≠ some cmd → s.eventual cmd = some v →
    value c s.params cmd = some v
  sent : ∀ cmd, supports cfg cmd = true →
    s.eventual cmd ≠ none ∨ (s.first = true ∧ (s.call = [] ∨ .queue cmd ∈ s.call))
  waiting : ∀ e ∈ s.waiting, s.data e.1 = e.2
  read : ∀ cmd w v, s.thread = .read cmd w v → w = v
  executed : ExecutedRight s

lemma inv_init (params : Params) (data : Cmd → ℤ) : Inv c cfg .free (init params data) where
  script := .nil
  ready := nofun
  recorded := nofun
  sent _ _ := Or.inr ⟨rfl, Or.inl rfl⟩
  waiting := nofun
  read := nofun
  executed := nofun

lemma byValue_of_supports (hsupported : supports cfg cmd = true) : byValue cmd = true := by
  cases cmd with
  | setFocusMode | stopContinuousSnap => cases hsupported
  | _ => rfl

/-- A step of `commandThread`. -/
lemma Inv.of_thread (h : Inv c cfg m s) (hparams : s'.params = s.params)
    (hfirst : s'.first = s.first) (hdata : s'.data = s.data) (hcall : s'.call = s.call)
    (heventual : ∀ k, byValue k = true → s'.eventual k = s.eventual k)
    (hwaiting : ∀ e ∈ s'.waiting, e ∈ s.waiting)
    (hread : ∀ cmd w v, s'.thread = .read cmd w v → w = v) (hexecuted : ExecutedRight s') :
    Inv c cfg m s' where
  script := by
    rw [hparams, hcall]
    exact h.script
  ready cmd v hm := by
    rw [hdata]
    exact h.ready cmd v hm
  recorded cmd v hsupported hcmd hev := by
    rw [heventual cmd (byValue_of_supports hsupported)] at hev
    rw [hparams]
    exact h.recorded cmd v hsupported hcmd hev
  sent cmd hsupported := by
    rw [heventual cmd (byValue_of_supports hsupported), hfirst, hcall]
    exact h.sent cmd hsupported
  waiting e he := by
    rw [hdata]
    exact h.waiting e (hwaiting e he)
  read := hread
  executed := hexecuted

lemma Inv.dequeue {q : List (Cmd × ℤ)} (h : Inv c cfg m s) (hthread : s.thread = .idle)
    (hqueue : s.queue = (cmd, w) :: q) :
    Inv c cfg m { s with thread := .got cmd w, queue := q } := by
  have hwaiting : State.waiting { s with thread := .got cmd w, queue := q } = s.waiting := by
    simp [State.waiting, hthread, hqueue]
  refine h.of_thread rfl rfl rfl rfl (fun k _ => ?_) (fun e he => ?_) nofun h.executed
  · refine eventual_congr (by rw [hwaiting]) (fun _ => rfl) (fun _ => ?_)
    simp [State.delivered, hthread]
  · rwa [hwaiting] at he

lemma Inv.readData (h : Inv c cfg m s) (hthread : s.thread = .got cmd w) :
    Inv c cfg m { s with thread := .read cmd w (s.data cmd) } := by
  have hwaiting : s.waiting = (cmd, w) :: s.queue := by simp [State.waiting, hthread]
  refine h.of_thread rfl rfl rfl rfl (fun k _ => eventual_readData hthread k) (fun e he => ?_)
    (fun k w' v hread => ?_) h.executed
  · rw [hwaiting]
    exact List.mem_cons_of_mem _ he
  · obtain ⟨rfl, rfl, rfl⟩ := Thread.read.inj hread
    have hentry := h.waiting (cmd, w) (by simp [hwaiting])
    exact hentry.symm

lemma Inv.give (h : Inv c cfg m s) (hthread : s.thread = .read cmd w v) :
    Inv c cfg m (s.give cmd w v) := by
  have hkeeps : (s.give cmd w v).params = s.params ∧ (s.give cmd w v).first = s.first ∧
      (s.give cmd w v).data = s.data ∧ (s.give cmd w v).call = s.call ∧
      (s.give cmd w v).thread = .idle ∧ (s.give cmd w v).queue = s.queue := by
    unfold State.give
    split_ifs
    · exact ⟨rfl, rfl, rfl, rfl, rfl, rfl⟩
    · exact ⟨rfl, rfl, rfl, rfl, rfl, rfl⟩
  obtain ⟨hparams, hfirst, hdata, hcall, hidle, hqueue⟩ := hkeeps
  refine h.of_thread hparams hfirst hdata hcall (fun k hk => eventual_give hthread hk)
    (fun e he => ?_) (fun k w' v' hread => ?_) ?_
  · simpa [State.waiting, hidle, hqueue, hthread] using he
  · rw [hidle] at hread
    cases hread
  · unfold State.give
    split_ifs
    · intro e he
      rcases List.mem_cons.mp he with rfl | he
      · exact h.read cmd w v hthread
      · exact h.executed e he
    · exact h.executed

section Access

variable {a : Access}

lemma Inv.sent_of_tail (h : Inv c cfg m s) (hcall : s.call = a :: as)
    (hsupported : supports cfg cmd = true) (ha : a ≠ .queue cmd) :
    s.eventual cmd ≠ none ∨ (s.first = true ∧ (as = [] ∨ .queue cmd ∈ as)) := by
  refine (h.sent cmd hsupported).imp_right (And.imp_right fun hsent => Or.inr ?_)
  rw [hcall] at hsent
  rcases hsent with hnil | hmem
  · cases hnil
  · exact (List.mem_cons.mp hmem).resolve_left ha.symm

/-- An access that changes `mParameters`. -/
lemma Inv.setParam {m' : Mode} (h : Inv c cfg m s) (hcall : s.call = .setParam p' :: as)
    (hscript : Script c m' p' as) (hready : ∀ cmd v, m' ≠ .ready cmd v)
    (hcmd : ∀ k, m'.cmd ≠ some k → m.cmd ≠ some k)
    (hsame : ∀ k, m'.cmd ≠ some k → value c p' k = value c s.params k) :
    Inv c cfg m' { s.perform (.setParam p') with call := as } where
  script := hscript
  ready cmd v hm := absurd hm (hready cmd v)
  recorded cmd v hsupported hk hev := by
    have hold := h.recorded cmd v hsupported (hcmd cmd hk) hev
    exact (hsame cmd hk).trans hold
  sent cmd hsupported := h.sent_of_tail hcall hsupported nofun
  waiting := h.waiting
  read := h.read
  executed := h.executed

lemma Inv.setData (h : Inv c cfg (.recorded cmd v) s) (hcall : s.call = .setData cmd v :: as)
    (hscript : Script c (.ready cmd v) s.params as) (hfresh : s.Fresh (.setData cmd v)) :
    Inv c cfg (.ready cmd v) { s.perform (.setData cmd v) with call := as } where
  script := hscript
  ready k w hm := by
    obtain ⟨rfl, rfl⟩ := Mode.ready.inj hm
    simp [State.perform]
  recorded k w hsupported hk hev := by
    have hne : k ≠ cmd := fun heq => hk (congrArg some heq.symm)
    have hsame := eventual_setData_of_ne (s := s) (v := v) hne
    exact h.recorded k w hsupported hk (hsame.symm.trans hev)
  sent k hsupported :=
    (h.sent_of_tail hcall hsupported nofun).imp_left eventual_setData_ne_none
  waiting e he := by
    by_cases heq : e.1 = cmd
    · have hv : e.2 = v := hfresh e he heq
      simp [State.perform, heq, hv]
    · simpa [State.perform, heq] using h.waiting e he
  read := h.read
  executed := h.executed

lemma perform_queue_waiting (h : Inv c cfg m s) :
    ∀ e ∈ (s.perform (.queue cmd)).waiting, s.data e.1 = e.2 := by
  intro e he
  rcases mem_waiting_queue he with hold | rfl
  · exact h.waiting e hold
  · rfl

lemma Inv.queue (h : Inv c cfg (.ready cmd v) s) (hcall : s.call = .queue cmd :: as)
    (hvalue : value c s.params cmd = some v) (hscript : Script c .free s.params as)
    (hfresh : s.Fresh (.queue cmd)) :
    Inv c cfg .free { s.perform (.queue cmd) with call := as } where
  script := hscript
  ready := nofun
  recorded k w hsupported _ hev := by
    by_cases heq : k = cmd
    · subst heq
      -- the value that was recorded is in the element
      have hdata := h.ready k v rfl
      have hgiven := eventual_queue hfresh (byValue_of_supports hsupported)
      rw [hdata] at hgiven
      rw [← hev]
      exact hvalue.trans hgiven.symm
    · have hsame := eventual_queue_of_ne (s := s) heq
      have hk : (Mode.ready cmd v).cmd ≠ some k := fun hk => heq (Option.some.inj hk).symm
      exact h.recorded k w hsupported hk (hsame.symm.trans hev)
  sent k hsupported := by
    by_cases heq : k = cmd
    · subst heq
      left
      have hgiven := eventual_queue hfresh (byValue_of_supports hsupported)
      exact fun hnone => nomatch hgiven.symm.trans hnone
    · have hsame := eventual_queue_of_ne (s := s) heq
      have hsent := h.sent_of_tail hcall hsupported (fun ha => heq (Access.queue.inj ha).symm)
      rw [← hsame] at hsent
      exact hsent
  waiting := perform_queue_waiting h
  read := h.read
  executed := h.executed

/-- A command is queued for which `commandThread` does not use the element. -/
lemma Inv.queue_of_not_byValue (h : Inv c cfg .free s) (hcall : s.call = a :: as)
    (ha : ∀ k, supports cfg k = true → a ≠ .queue k) (hcmd : byValue cmd = false)
    (hscript : Script c .free s.params as) :
    Inv c cfg .free { s.perform (.queue cmd) with call := as } := by
  have hsame : ∀ k, supports cfg k = true →
      (s.perform (.queue cmd)).eventual k = s.eventual k := by
    intro k hk
    refine eventual_queue_of_ne ?_
    rintro rfl
    exact absurd (byValue_of_supports hk) (by rw [hcmd]; decide)
  refine ⟨hscript, nofun, fun k v hk hm hev => ?_, fun k hk => ?_, perform_queue_waiting h, h.read,
    h.executed⟩
  · exact h.recorded k v hk hm ((hsame k hk).symm.trans hev)
  · have hsent := h.sent_of_tail hcall hk (ha k hk)
    rw [← hsame k hk] at hsent
    exact hsent

lemma Inv.queueSetElem (h : Inv c cfg .free s) (hcall : s.call = .queueSetElem .setFocusMode :: as)
    (hscript : Script c .free s.params as) :
    Inv c cfg .free { s.perform (.queueSetElem .setFocusMode) with call := as } := by
  rcases perform_queueSetElem s .setFocusMode with hperform | hperform
  · rw [hperform]
    exact ⟨hscript, nofun, h.recorded, fun k hk => h.sent_of_tail hcall hk nofun, h.waiting, h.read,
      h.executed⟩
  · rw [hperform]
    exact h.queue_of_not_byValue hcall (fun _ _ => nofun) rfl hscript

lemma Inv.access (h : Inv c cfg m s) (hcall : s.call = a :: as) (hfresh : s.Fresh a) :
    ∃ m', Inv c cfg m' { s.perform a with call := as } := by
  have hscript := h.script
  rw [hcall] at hscript
  cases hscript with
  | signal =>
    exact ⟨.free, .nil, nofun, h.recorded, fun k hk => h.sent_of_tail hcall hk nofun, h.waiting,
      h.read, h.executed⟩
  | finish =>
    refine ⟨.free, .signal, nofun, h.recorded, fun k hk => Or.inl ?_, h.waiting, h.read,
      h.executed⟩
    -- a first call has queued everything by now
    rcases h.sent_of_tail hcall hk nofun with hsome | ⟨-, hnil | hmem⟩
    · exact hsome
    · cases hnil
    · simp at hmem
  | keep hsame hrest =>
    exact ⟨.free, h.setParam hcall hrest nofun (fun _ hk => hk) fun k _ => hsame k⟩
  | focus hrest => exact ⟨.free, h.queueSetElem hcall hrest⟩
  | stop hrest =>
    refine ⟨.free, h.queue_of_not_byValue hcall (fun k hk heq => ?_) rfl hrest⟩
    obtain rfl := Access.queue.inj heq
    cases hk
  | @record _ _ _ cmd v hsame hrest =>
    exact ⟨.recorded cmd v, h.setParam hcall hrest nofun (fun _ _ => nofun)
      fun k hk => hsame k fun heq => hk (congrArg some heq.symm)⟩
  | @again _ _ _ v hsame hrest =>
    exact ⟨.recorded .setFlashMode v, h.setParam hcall hrest nofun (fun _ hk => hk)
      fun k _ => hsame k⟩
  | @setData _ _ cmd v hrest => exact ⟨.ready cmd v, h.setData hcall hrest hfresh⟩
  | queue hvalue hrest => exact ⟨.free, h.queue hcall hvalue hrest hfresh⟩

end Access

/-- A new call. -/
lemma Inv.setParameters {r : Request} (h : Inv c cfg m s) (hcall : s.call = [])
    (hvalid : Valid c cfg r.params)
    (hpart : Camera.setParameters c cfg s.first r s.params = (as, some p')) :
    Inv c cfg .free { s with call := as } := by
  have hm : m = .free := by
    have hscript := h.script
    rw [hcall] at hscript
    cases hscript
    rfl
  subst hm
  refine ⟨complete_setParameters hvalid _ _ _ hpart, nofun, h.recorded, fun k hk => ?_, h.waiting,
    h.read, h.executed⟩
  refine (h.sent k hk).imp_right fun ⟨hfirst, _⟩ => ⟨hfirst, Or.inr ?_⟩
  rw [hfirst] at hpart
  exact queues_setParameters hvalid hk _ _ _ hpart

lemma inv_step {a : Act} (h : ∃ m, Inv c cfg m s) (hok : Ok a s)
    (hstep : step c cfg s a = some s') : ∃ m, Inv c cfg m s' := by
  obtain ⟨m, h⟩ := h
  cases a with
  | setParameters r =>
    simp only [step] at hstep
    split_ifs at hstep with hcond
    split at hstep
    next => cases hstep
    next as p' hpart =>
      obtain rfl := Option.some.inj hstep
      exact ⟨.free, h.setParameters hcond.1 hcond.2 hpart⟩
  | access =>
    simp only [step] at hstep
    split at hstep
    next => cases hstep
    next a as hcall =>
      obtain rfl := Option.some.inj hstep
      exact h.access hcall (hok a (by simp [hcall]))
  | dequeue =>
    simp only [step] at hstep
    split at hstep
    next cmd w q hthread hqueue =>
      obtain rfl := Option.some.inj hstep
      exact ⟨m, h.dequeue hthread hqueue⟩
    next => cases hstep
  | readData =>
    simp only [step] at hstep
    split at hstep
    next cmd w hthread =>
      obtain rfl := Option.some.inj hstep
      exact ⟨m, h.readData hthread⟩
    next => cases hstep
  | give =>
    simp only [step] at hstep
    split at hstep
    next cmd w v hthread =>
      obtain rfl := Option.some.inj hstep
      exact ⟨m, h.give hthread⟩
    next => cases hstep

lemma Inv.settled (h : Inv c cfg m s) : Settled c cfg s := by
  intro hqueue hthread cmd hsupported hblock
  have heventual : s.eventual cmd = s.given cmd := by
    rw [eventual_of_not_mem (by simp [State.waiting, hthread, hqueue])]
    simp [State.delivered, hthread]
  have hcmd : m.cmd ≠ some cmd := by
    intro hcmd
    rw [h.script.inBlock_of_cmd hcmd] at hblock
    cases hblock
  unfold Agrees
  cases hgiven : s.given cmd with
  | some v => exact h.recorded cmd v hsupported hcmd (heventual.trans hgiven)
  | none =>
    rcases h.sent cmd hsupported with hsome | ⟨hfirst, -⟩
    · exact absurd (heventual.trans hgiven) hsome
    · exact hfirst

/-- In every run that keeps to the condition, commands are executed with the values they were
queued with, and the device has the recorded settings when there is nothing to do.  An access puts
its command into the queue as `OSAL_Queue.c` does. -/
theorem settled_of_run (params : Params) (data : Cmd → ℤ)
    (hrun : Runs (step c cfg) Ok (init params data) s) : ExecutedRight s ∧ Settled c cfg s ∧
      ∀ cmd, (s.perform (.queue cmd)).queue.map Prod.fst =
          (push commandQueueSize (s.queue.map Prod.fst) cmd).getD (s.queue.map Prod.fst) ∧
        (s.perform (.queueSetElem cmd)).queue.map Prod.fst =
          (pushNew commandQueueSize (s.queue.map Prod.fst) cmd).getD (s.queue.map Prod.fst) := by
  obtain ⟨m, h⟩ := hrun.invariant (P := fun s => ∃ m, Inv c cfg m s) inv_step
    ⟨.free, inv_init params data⟩
  exact ⟨h.executed, h.settled, perform_queue_commands s⟩

/-! ## Fixed runs -/

namespace Trial

def codes : Codes := ⟨0, 1, 2, 7, 3, 1, 6, 8, 4, 2, 3, 0, 3, 1, 2, 4⟩

/-- A camera with image effects and a flash. -/
def config : Config := ⟨true, false, false, true, false⟩

def params : Params := ⟨some "none", some "auto", 0, 0, 0, "off", 0, 0, "fixed", ""⟩

abbrev start : State := init params fun _ => 0

/-- A whole call with `n` accesses.  It sends the flash mode, and an effect that has changed. -/
def call (effect : String) (n : ℕ) : List Act :=
  .setParameters ⟨{ params with effect := some effect }, true, false, true, true, true⟩ ::
    List.replicate n .access

/-- `commandThread` executes `n` commands. -/
def execute (n : ℕ) : List Act := (List.replicate n [.dequeue, .readData, .give]).flatten

/-- Two calls that change the effect before `commandThread` runs. -/
def overwriting : List Act := call "none" 11 ++ call "mono" 11 ++ execute 1

/-- Calls that only repeat the flash mode fill the queue, and an effect is refused. -/
def refusing : List Act :=
  call "none" 11 ++ execute 1 ++ (List.replicate 14 (call "none" 8)).flatten ++ call "mono" 11 ++
    execute 15

end Trial

open Trial

theorem settled_of_run_two_calls : ∃ s, Runs (step codes config) Ok start s ∧
    s.given .setColorEffect = some 1 ∧ ExecutedRight s ∧ Settled codes config s := by
  obtain ⟨s, hrun, hgiven⟩ := exists_runs (step codes config) Ok
    (fun s => s.given .setColorEffect = some 1) (s := start)
    (call "none" 11 ++ execute 2 ++ call "mono" 11 ++ execute 2) (by decide +kernel)
  obtain ⟨hexecuted, hsettled, -⟩ := settled_of_run _ _ hrun
  exact ⟨s, hrun, hgiven, hexecuted, hsettled⟩

/-- The first effect is executed with the value of the second, and an effect that was refused is
recorded and never given to the device. -/
theorem overwritten_and_refused :
    (∃ s, Runs (step codes config) (fun _ _ => True) start s ∧ ¬ ExecutedRight s) ∧
      ∃ s, Runs (step codes config) (fun _ _ => True) start s ∧ ¬ Settled codes config s := by
  constructor
  · obtain ⟨s, hrun, hmem⟩ := exists_runs (step codes config) (fun _ _ => True)
      (fun s => (Cmd.setColorEffect, 0, 1) ∈ s.executed) (s := start) overwriting
      (by decide +kernel)
    refine ⟨s, hrun, fun hright => ?_⟩
    exact absurd (hright _ hmem) (by decide)
  · obtain ⟨s, hrun, ⟨hqueue, hthread, hcall⟩, hgiven, heffect⟩ :=
      exists_runs (step codes config) (fun _ _ => True)
        (fun s => (s.queue = [] ∧ s.thread = .idle ∧ s.call = []) ∧
          s.given .setColorEffect = some 0 ∧ s.params.effect = some "mono") (s := start) refusing
        (by decide +kernel)
    refine ⟨s, hrun, fun hsettled => ?_⟩
    have hagrees := hsettled hqueue hthread .setColorEffect rfl (by rw [hcall]; rfl)
    simp only [Agrees, hgiven, value, heffect] at hagrees
    exact absurd hagrees (by decide)

end Softwinner.Camera.Settings

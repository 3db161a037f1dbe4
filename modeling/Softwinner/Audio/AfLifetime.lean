import Mathlib.Data.Int.Notation
import Mathlib.Tactic.SplitIfs
import Mathlib.Tactic.Tauto
import Softwinner.Audio.AfRing

/-!
# The lifetime of the AF ring

`adev_open_input_stream` and `adev_close_input_stream`.  The device has one ring and one
`af_capture_flag` for all its input streams.  Every open clears the flag, an open of an AF stream
replaces the ring, and every close frees it, whatever the stream.

`good_iff_alone` says that the ring is what the AF streams expect as long as nothing else is
opened or closed while one is open, and no longer.
-/

namespace Softwinner.Audio.AfLifetime

/-- `PcmManager`, with the blocks that `malloc` has returned as pointers.  `BufReadPtr` and
`BufWritPtr` start at the block. -/
structure PcmManager where
  bufExist : Bool
  bufStart : Option ℕ
  bufTotalLen : ℤ
  bufReadPtr : Option ℕ
  dataLen : ℤ
  bufWritPtr : Option ℕ
  bufValideLen : ℤ
  sampleRate : ℤ
  channel : ℤ
  deriving DecidableEq

/-- An open input stream; an AF stream knows the ring that it was given. -/
structure Stream where
  id : ℕ
  ring : Option ℕ
  deriving DecidableEq

/-- The stream was opened with `AUDIO_DEVICE_IN_AF`. -/
def Stream.IsAf (x : Stream) : Prop := x.ring ≠ none

instance (x : Stream) : Decidable x.IsAf := inferInstanceAs (Decidable (_ ≠ _))

structure State where
  afCaptureFlag : Bool
  pcmManager : PcmManager
  streams : List Stream
  /-- The number of streams and of rings so far. -/
  opens : ℕ
  rings : ℕ
  deriving DecidableEq

/-- The arguments of `adev_open_input_stream`, and what its checks and allocations return. -/
structure OpenInput where
  af : Bool
  sampleRate : ℤ
  paramsOk : Bool
  streamAlloc : Bool
  bufferAlloc : Bool
  ringAlloc : Bool
  deriving DecidableEq

/-- The open gets past the checks that leave the device alone. -/
def OpenInput.starts (x : OpenInput) : Bool := x.paramsOk && x.streamAlloc && x.bufferAlloc

inductive Call
  | openInputStream (x : OpenInput)
  /-- `adev_close_input_stream` on the stream with this number. -/
  | closeInputStream (id : ℕ)
  deriving DecidableEq

namespace State

variable (s : State)

/-- The ring is set up. -/
def setupRing (sampleRate : ℤ) : State :=
  { s with
    afCaptureFlag := true
    pcmManager :=
      ⟨true, some s.rings, AfRing.afBufferSize, some s.rings, 0, some s.rings,
        AfRing.afBufferSize, sampleRate, 2⟩
    rings := s.rings + 1 }

/-- A stream is handed out. -/
def addStream (ring : Option ℕ) : State :=
  { s with streams := ⟨s.opens, ring⟩ :: s.streams, opens := s.opens + 1 }

/-- `adev_open_input_stream` behind its first allocations. -/
def openRing (x : OpenInput) : State :=
  let s := { s with afCaptureFlag := false }
  if x.af then
    if x.ringAlloc then (s.setupRing x.sampleRate).addStream (some s.rings)
    -- `BufStart` has been overwritten
    else { s with pcmManager := { s.pcmManager with bufStart := none } }
  else s.addStream none

/-- `adev_close_input_stream`, without the stream's own standby. -/
def closeRing : State :=
  { s with
    afCaptureFlag := false
    pcmManager :=
      if s.pcmManager.bufStart.isSome then
        { s.pcmManager with bufExist := false, bufStart := none }
      else s.pcmManager }

def step : Call → Option State
  | .openInputStream x => if x.starts then some (s.openRing x) else some s
  | .closeInputStream id =>
    if ∃ x ∈ s.streams, x.id = id then
      some { s.closeRing with streams := s.streams.filter fun x => x.id ≠ id }
    else none

end State

/-- The device after `adev_open`. -/
def fresh (pcmManager : PcmManager) : State :=
  ⟨false, { pcmManager with bufExist := false, bufStart := none }, [], 0, 0⟩

/-! ## The property, and the condition -/

/-- The ring is that of every open AF stream, and exists exactly if `BufStart` points to it. -/
structure Good (s : State) : Prop where
  ring : ∀ x ∈ s.streams, x.IsAf → s.afCaptureFlag = true ∧ s.pcmManager.bufExist = true ∧
    s.pcmManager.bufStart = x.ring
  exist : s.pcmManager.bufExist = true ↔ s.pcmManager.bufStart ≠ none

/-- The call is about an AF stream. -/
def Call.OnAf (s : State) : Call → Prop
  | .openInputStream x => x.af = true
  | .closeInputStream id => ∃ x ∈ s.streams, x.id = id ∧ x.IsAf

/-- Calls on other streams leave the ring alone. -/
def Keeps (c : Call) (s s' : State) : Prop :=
  ¬ c.OnAf s → s'.pcmManager = s.pcmManager ∧ s'.afCaptureFlag = s.afCaptureFlag

/-- While an AF stream is open, no other stream is opened or closed (an open that fails before the
ring is touched may be tried). -/
def Alone (c : Call) (s : State) : Prop :=
  match c with
  | .openInputStream x => x.starts = true → ∀ y ∈ s.streams, ¬ y.IsAf
  | .closeInputStream id => ∀ y ∈ s.streams, y.IsAf → y.id = id

/-- What holds as long as AF streams are alone. -/
structure Inv (s : State) : Prop extends Good s where
  none : (∀ x ∈ s.streams, ¬ x.IsAf) →
    s.afCaptureFlag = false ∧ s.pcmManager.bufStart = Option.none
  one : ∀ x ∈ s.streams, ∀ y ∈ s.streams, x.IsAf → y.IsAf → x = y
  rings : ∀ x ∈ s.streams, ∀ r, x.ring = some r → r < s.rings

variable {s s' : State} {c : Call}

/-! ## Calls that are alone -/

lemma Inv.open (hs : Inv s) (x : OpenInput) (hnone : ∀ y ∈ s.streams, ¬ y.IsAf) :
    Inv (s.openRing x) := by
  obtain ⟨hflag, hstart⟩ := hs.none hnone
  have hexist : s.pcmManager.bufExist = false := by
    have := hs.exist
    simpa [hstart] using this
  have hnew : ∀ y : Stream, y ∈ s.streams → y.IsAf → False := hnone
  unfold State.openRing
  simp only
  split_ifs with haf halloc
  · -- the only AF stream is the new one
    have hmem : ∀ y ∈ (⟨s.opens, some s.rings⟩ : Stream) :: s.streams, y.IsAf →
        y = ⟨s.opens, some s.rings⟩ := by
      intro y hy hya
      rcases List.mem_cons.mp hy with rfl | hy
      · rfl
      · exact (hnew y hy hya).elim
    refine ⟨⟨fun y hy hya => ?_, ?_⟩, fun hall => ?_, fun y hy z hz hya hza => ?_,
      fun y hy r hr => ?_⟩
    · rw [hmem y hy hya]
      exact ⟨rfl, rfl, rfl⟩
    · simp [State.setupRing, State.addStream]
    · exact absurd (by simp [Stream.IsAf])
        (hall ⟨s.opens, some s.rings⟩ (List.mem_cons_self ..))
    · rw [hmem y hy hya, hmem z hz hza]
    · rcases List.mem_cons.mp hy with rfl | hy
      · obtain rfl := Option.some.inj hr
        exact Nat.lt_succ_self _
      · exact Nat.lt_succ_of_lt (hs.rings y hy r hr)
  · refine ⟨⟨fun y hy hya => (hnew y hy hya).elim, ?_⟩, fun _ => ⟨rfl, rfl⟩,
      fun y hy _ _ hya => (hnew y hy hya).elim, hs.rings⟩
    simp [hexist]
  · refine ⟨⟨fun y hy hya => ?_, hs.exist⟩, fun _ => ⟨rfl, hstart⟩, fun y hy z hz hya => ?_,
      fun y hy r hr => ?_⟩
    · rcases List.mem_cons.mp hy with rfl | hy
      · exact absurd rfl hya
      · exact (hnew y hy hya).elim
    · rcases List.mem_cons.mp hy with rfl | hy
      · exact absurd rfl hya
      · exact (hnew y hy hya).elim
    · rcases List.mem_cons.mp hy with rfl | hy
      · cases hr
      · exact hs.rings y hy r hr

lemma Inv.close (hs : Inv s) {id : ℕ} (halone : ∀ y ∈ s.streams, y.IsAf → y.id = id) :
    Inv { s.closeRing with streams := s.streams.filter fun x => x.id ≠ id } := by
  have hgone : ∀ y ∈ s.streams.filter fun x => x.id ≠ id, ¬ y.IsAf := by
    intro y hy hya
    obtain ⟨hy, hne⟩ := List.mem_filter.mp hy
    exact (of_decide_eq_true hne) (halone y hy hya)
  have hexist := hs.exist
  refine ⟨⟨fun y hy hya => absurd hya (hgone y hy), ?_⟩, fun _ => ⟨rfl, ?_⟩,
    fun y hy _ _ hya => absurd hya (hgone y hy),
    fun y hy => hs.rings y (List.mem_filter.mp hy).1⟩
  · simp only [State.closeRing]
    split_ifs with hstart
    · simp
    · exact hexist
  · simp only [State.closeRing]
    split_ifs with hstart
    · rfl
    · simpa using hstart

/-- A call that is alone keeps everything. -/
lemma Inv.step (hs : Inv s) (halone : Alone c s) (hstep : s.step c = some s') :
    Inv s' ∧ Keeps c s s' := by
  cases c with
  | openInputStream x =>
    simp only [State.step] at hstep
    split_ifs at hstep with hstarts
    · obtain rfl := Option.some.inj hstep
      have hnone := halone hstarts
      refine ⟨hs.open x hnone, fun hnot => ?_⟩
      have haf : x.af = false := by simpa [Call.OnAf] using hnot
      simp [State.openRing, haf, State.addStream, (hs.none hnone).1]
    · obtain rfl := Option.some.inj hstep
      exact ⟨hs, fun _ => ⟨rfl, rfl⟩⟩
  | closeInputStream id =>
    simp only [State.step] at hstep
    split_ifs at hstep with hopen
    obtain rfl := Option.some.inj hstep
    refine ⟨hs.close halone, fun hnot => ?_⟩
    have hnone : ∀ y ∈ s.streams, ¬ y.IsAf := fun y hy hya => hnot ⟨y, hy, halone y hy hya, hya⟩
    obtain ⟨hflag, hstart⟩ := hs.none hnone
    simp [State.closeRing, hflag, hstart]

/-- A call that is not alone breaks the ring of an AF stream. -/
lemma Inv.alone_of_good (hs : Inv s) (hstep : s.step c = some s') (hgood : Good s') :
    Alone c s := by
  cases c with
  | openInputStream x =>
    intro hstarts y hy hya
    simp only [State.step, hstarts, if_true] at hstep
    obtain rfl := Option.some.inj hstep
    unfold State.openRing at hgood
    simp only at hgood
    split_ifs at hgood with haf halloc
    · obtain ⟨-, -, hring⟩ := hgood.ring y (List.mem_cons_of_mem _ hy) hya
      have hlt := hs.rings y hy s.rings hring.symm
      exact absurd hlt (Nat.lt_irrefl _)
    · exact nomatch (hgood.ring y hy hya).1
    · exact nomatch (hgood.ring y (List.mem_cons_of_mem _ hy) hya).1
  | closeInputStream id =>
    intro y hy hya
    by_contra hne
    simp only [State.step] at hstep
    split_ifs at hstep with hopen
    obtain rfl := Option.some.inj hstep
    have hmem : y ∈ s.streams.filter fun x => x.id ≠ id :=
      List.mem_filter.mpr ⟨hy, decide_eq_true hne⟩
    exact nomatch (hgood.ring y hmem hya).1

lemma inv_fresh (pcmManager : PcmManager) : Inv (fresh pcmManager) := by
  refine ⟨⟨fun _ hx => ?_, by simp [fresh]⟩, fun _ => ⟨rfl, rfl⟩, fun _ hx => ?_, fun _ hx => ?_⟩
  · exact absurd hx List.not_mem_nil
  · exact absurd hx List.not_mem_nil
  · exact absurd hx List.not_mem_nil

/-- **The lifetime of the ring.**  Along any sequence of opens and closes the ring is that of the
open AF streams, and other streams leave it alone, if and only if no call on another stream falls
between the open and the close of an AF stream. -/
theorem good_iff_alone (pcmManager : PcmManager) (cs : List Call) :
    Framework.Along State.step Good Keeps (fresh pcmManager) cs ↔
      Framework.Meets State.step Alone (fresh pcmManager) cs :=
  Framework.along_iff_meets (fun hs => hs.toGood) (fun hs halone hstep => hs.step halone hstep)
    (fun hs hstep _ hgood => hs.alone_of_good hstep hgood) cs (inv_fresh pcmManager)

/-- An AF stream and another one: the open of the second one clears the flag, and its close frees
the ring of the first. -/
theorem ring_freed_by_other : ∃ s : State,
    [Call.openInputStream ⟨true, 44100, true, true, true, true⟩,
      .openInputStream ⟨false, 44100, true, true, true, true⟩, .closeInputStream 1].foldlM
      State.step (fresh ⟨false, none, 0, none, 0, none, 0, 0, 0⟩) = some s ∧
    (∃ x ∈ s.streams, x.IsAf) ∧ s.afCaptureFlag = false ∧ s.pcmManager.bufStart = none ∧
      ¬ Good s := by
  refine ⟨⟨false, ⟨false, none, AfRing.afBufferSize, some 0, 0, some 0, AfRing.afBufferSize, 44100,
    2⟩, [⟨0, some 0⟩], 2, 1⟩, by decide, by decide, rfl, rfl, fun hgood => ?_⟩
  exact nomatch (hgood.ring ⟨0, some 0⟩ (List.mem_singleton.mpr rfl) (by decide)).1

end Softwinner.Audio.AfLifetime

import Mathlib.Data.Fintype.Basic
import Mathlib.Logic.Function.Basic
import Softwinner.Framework.Ledger
import Softwinner.Framework.Runs

/-!
# Recording a call

`plan_two_start_record`, `plan_two_stop_record`, `plan_two_mixer_buf` and the part of
`stream_transfer` that records, of `planTwo/manage.c`.  They share `record_data`, and the flags
`record_flag`, `g_enable_record` and `g_exit_mixer_buf`, without a lock.

A stop clears the whole structure.  A transfer or a reader between its test and its access then
computes modulo zero; the stop waits for a reader that may not be there; and the pointer it wants
to free is the one that it has cleared.  `session_of_run` says when the first two do not happen, and
that the third one always does.

There is one call of start and one of stop at a time, and any number of readers.  The counters,
`int`s in the source, are taken as unbounded.
-/

namespace Softwinner.Audio.RecordSession

open Framework (Ledger)

/-! ## State -/

/-- The four `struct stream_transfer`, in the order in which their flags are written. -/
inductive Transfer
  | btUpload | btDownload | bpUpload | bpDownload
  deriving DecidableEq

def Transfer.all : List Transfer := [.btUpload, .btDownload, .bpUpload, .bpDownload]

def Transfer.upstream : Transfer → Bool
  | .btUpload | .bpUpload => true
  | .btDownload | .bpDownload => false

/-- `struct record_data`; a buffer is its number in the ledger. -/
structure RecordData where
  recordBuf : Option ℕ
  recordLenth : ℕ
  lenwrite : ℤ
  lenwritedown : ℤ
  lenwriteup : ℤ
  lenread : ℤ
  deriving DecidableEq

namespace RecordData

variable (r : RecordData)

/-- `memset(&(record_data), 0, sizeof(struct record_data))`. -/
def zero : RecordData := ⟨none, 0, 0, 0, 0, 0⟩

/-- The transfers of this direction have written less than the others, so that a block is mixed
into what is there. -/
def behind (upstream : Bool) : Bool :=
  if upstream then r.lenwriteup < r.lenwritedown else r.lenwritedown < r.lenwriteup

def written (upstream behind : Bool) (size : ℕ) : RecordData :=
  { r with
    lenwrite := if behind then r.lenwrite + size else r.lenwrite
    lenwriteup := if upstream then r.lenwriteup + size else r.lenwriteup
    lenwritedown := if upstream then r.lenwritedown else r.lenwritedown + size }

end RecordData

/-- Where `plan_two_start_record` is, behind its `memset`. -/
inductive StartPc
  | outside
  | malloc
  | setLenth (size : ℕ)
  | memsetBuf
  | semInit
  /-- The flags that are still to be set. -/
  | setFlags (rest : List Transfer)
  | enable
  deriving DecidableEq

inductive StopPc
  | outside
  /-- The flags that are still to be cleared. -/
  | clearFlags (rest : List Transfer)
  | memset
  | testExit
  | semPost
  | semDestroy
  | free
  deriving DecidableEq

/-- Where `stream_transfer` is. -/
inductive TransferPc
  | testFlag
  | copy (size : ℕ)
  | count (size : ℕ) (behind : Bool)
  | semPost
  deriving DecidableEq

/-- Where a call of `plan_two_mixer_buf` is, with its `bytes`. -/
inductive ReaderPc
  | outside
  | testEnabled (bytes : ℤ)
  | testLenth (bytes : ℤ)
  | copy (bytes : ℤ)
  | count (bytes : ℤ)
  | clearExit (bytes : ℤ)
  | semWait (bytes : ℤ)
  | testWoken (bytes : ℤ)
  | setExit
  deriving DecidableEq

/-- The readers are indexed by `ι`. -/
structure State (ι : Type) where
  recordData : RecordData
  recordFlag : Transfer → Bool
  enableRecord : Bool
  exitMixerBuf : Bool
  semRecord : ℕ
  start : StartPc
  stop : StopPc
  transfer : Transfer → TransferPc
  reader : ι → ReaderPc
  /-- The buffers of the starts that have returned 0. -/
  obtained : List ℕ
  ledger : Ledger
  /-- A modulo by zero has been computed. -/
  zeroModulo : Bool

variable {ι : Type}

/-- The static variables before the first call, and threads that have none of the flags. -/
def boot : State ι :=
  ⟨.zero, fun _ => false, false, false, 0, .outside, .outside, fun _ => .testFlag,
    fun _ => .outside, [], .empty, false⟩

/-! ## Steps -/

namespace State

variable [DecidableEq ι] (s : State ι)

def setTransfer (t : Transfer) (pc : TransferPc) : State ι :=
  { s with transfer := Function.update s.transfer t pc }

def setReader (i : ι) (pc : ReaderPc) : State ι :=
  { s with reader := Function.update s.reader i pc }

/-- The modulo by `record_lenth`, and the access to `record_buf` behind it. -/
def access : State ι :=
  { s with
    zeroModulo := s.zeroModulo || decide (s.recordData.recordLenth = 0)
    ledger := s.ledger.useIf s.recordData.recordBuf }

/-- `bufSize` is the `buf_size` of the stream whose voice is running; `ok` is what `malloc` or
`sem_init` returns. -/
def startStep (bufSize : ℕ) (ok : Bool) : Option (State ι) :=
  match s.start with
  | .outside => none
  | .malloc =>
    if ok then
      some { s with
        recordData := { s.recordData with recordBuf := some s.ledger.next }
        ledger := s.ledger.alloc
        start := .setLenth (bufSize * 10) }
    else
      some { s with recordData := { s.recordData with recordBuf := none }, start := .outside }
  | .setLenth size =>
    some { s with recordData := { s.recordData with recordLenth := size }, start := .memsetBuf }
  | .memsetBuf =>
    some { s with ledger := s.ledger.useIf s.recordData.recordBuf, start := .semInit }
  | .semInit =>
    if ok then some { s with semRecord := 0, start := .setFlags Transfer.all }
    else some { s with start := .outside }
  | .setFlags (t :: rest) =>
    some { s with recordFlag := Function.update s.recordFlag t true, start := .setFlags rest }
  | .setFlags [] => some { s with exitMixerBuf := false, start := .enable }
  | .enable =>
    some { s with
      enableRecord := true
      obtained := s.recordData.recordBuf.toList ++ s.obtained
      start := .outside }

def stopStep : Option (State ι) :=
  match s.stop with
  | .outside => none
  | .clearFlags (t :: rest) =>
    some { s with recordFlag := Function.update s.recordFlag t false, stop := .clearFlags rest }
  | .clearFlags [] => some { s with enableRecord := false, stop := .memset }
  | .memset => some { s with recordData := .zero, stop := .testExit }
  | .testExit => some { s with stop := if s.exitMixerBuf then .semDestroy else .semPost }
  | .semPost => some { s with semRecord := s.semRecord + 1, stop := .testExit }
  | .semDestroy => some { s with stop := .free }
  | .free =>
    some { s with ledger := s.ledger.releaseIf s.recordData.recordBuf, stop := .outside }

/-- `size` is the `buf_size` of the sender. -/
def transferStep (t : Transfer) (size : ℕ) : State ι :=
  match s.transfer t with
  | .testFlag => s.setTransfer t (if s.recordFlag t then .copy size else .testFlag)
  | .copy size => s.access.setTransfer t (.count size (s.recordData.behind t.upstream))
  | .count size behind =>
    { s with recordData := s.recordData.written t.upstream behind size }.setTransfer t .semPost
  | .semPost => { s with semRecord := s.semRecord + 1 }.setTransfer t .testFlag

def readerStep (i : ι) : Option (State ι) :=
  match s.reader i with
  | .outside => none
  | .testEnabled bytes =>
    some (s.setReader i (if s.enableRecord then .testLenth bytes else .outside))
  | .testLenth bytes =>
    some (s.setReader i
      (if bytes ≤ s.recordData.lenwrite - s.recordData.lenread then .copy bytes
        else .clearExit bytes))
  | .copy bytes => some (s.access.setReader i (.count bytes))
  | .count bytes =>
    some ({ s with
      recordData := { s.recordData with lenread := s.recordData.lenread + bytes } }.setReader i
        .setExit)
  | .clearExit bytes => some ({ s with exitMixerBuf := false }.setReader i (.semWait bytes))
  | .semWait bytes =>
    if 0 < s.semRecord then
      some ({ s with semRecord := s.semRecord - 1 }.setReader i (.testWoken bytes))
    else none
  | .testWoken bytes =>
    some (s.setReader i (if s.enableRecord then .testLenth bytes else .setExit))
  | .setExit => some ({ s with exitMixerBuf := true }.setReader i .outside)

end State

inductive Act (ι : Type)
  /-- The call, and its `memset`. -/
  | startRecord
  | start (bufSize : ℕ) (ok : Bool)
  | stopRecord
  | stop
  | transfer (t : Transfer) (size : ℕ)
  | mixerBuf (i : ι) (bytes : ℤ)
  | reader (i : ι)

def State.step [DecidableEq ι] (s : State ι) : Act ι → Option (State ι)
  | .startRecord =>
    if s.start = .outside then some { s with recordData := .zero, start := .malloc } else none
  | .start bufSize ok => s.startStep bufSize ok
  | .stopRecord =>
    if s.stop = .outside then some { s with stop := .clearFlags Transfer.all } else none
  | .stop => s.stopStep
  | .transfer t size => some (s.transferStep t size)
  | .mixerBuf i bytes =>
    if s.reader i = .outside then some (s.setReader i (.testEnabled bytes)) else none
  | .reader i => s.readerStep i

/-! ## The property, and the condition -/

/-- A stop is in its wait loop. -/
def StopPc.waiting : StopPc → Bool
  | .testExit | .semPost => true
  | _ => false

/-- The stop waits, and nobody is there to end its wait. -/
def Stuck (s : State ι) : Prop :=
  s.stop.waiting = true ∧ s.exitMixerBuf = false ∧ ∀ i, s.reader i = .outside

/-- No modulo by zero, no access to a freed buffer, and no stop that waits for nobody. -/
structure Safe (s : State ι) : Prop where
  nonzero : s.zeroModulo = false
  used : s.ledger.misused = false
  not_stuck : ¬ Stuck s

/-- The buffers of the sessions that are over have been freed exactly once. -/
def FreedOnce (s : State ι) : Prop :=
  ∀ b ∈ s.obtained, s.recordData.recordBuf ≠ some b → s.ledger.released b = 1

/-- The transfer has seen its flag and not added to the counters. -/
def TransferPc.between : TransferPc → Bool
  | .copy _ | .count _ _ => true
  | _ => false

/-- The reader has seen enough data and not copied it. -/
def ReaderPc.copying : ReaderPc → Bool
  | .copy _ => true
  | _ => false

/-- The reader has passed its first test, so that it will set `g_exit_mixer_buf`. -/
def ReaderPc.committed : ReaderPc → Bool
  | .outside | .testEnabled _ => false
  | _ => true

/-- Nobody is between a test and the access that it is for. -/
def NobodyBetween (s : State ι) : Prop :=
  (∀ t ∈ Transfer.all, (s.transfer t).between = false) ∧ ∀ i, (s.reader i).copying = false

/-- Somebody has set `g_exit_mixer_buf`, or will. -/
def Attended (s : State ι) : Prop :=
  s.exitMixerBuf = false → ∃ i, (s.reader i).committed = true

/-- Start and stop do not overlap and recording is not started twice; the buffer is not empty; a
stop clears the structure while nobody is between a test and its access, and when somebody has read
or is reading. -/
def Ok : Act ι → State ι → Prop
  | .startRecord, s => s.stop = .outside ∧ s.enableRecord = false
  | .start bufSize ok, s => s.start = .malloc → ok = true → bufSize ≠ 0
  | .stopRecord, s => s.start = .outside
  | .stop, s => s.stop = .memset → NobodyBetween s ∧ Attended s
  | .transfer _ _, _ => True
  | .mixerBuf _ bytes, _ => 0 < bytes
  | .reader _, _ => True

instance [Fintype ι] (s : State ι) : Decidable (Stuck s) := inferInstanceAs (Decidable (_ ∧ _))

instance [Fintype ι] (s : State ι) : Decidable (NobodyBetween s) :=
  inferInstanceAs (Decidable (_ ∧ _))

instance [Fintype ι] (s : State ι) : Decidable (Attended s) := inferInstanceAs (Decidable (_ → _))

instance [Fintype ι] (a : Act ι) (s : State ι) : Decidable (Ok a s) := by
  cases a <;> unfold Ok <;> infer_instance

/-! ## The invariant -/

/-- No flag is set, nobody is between a test and its access, and there is nothing to read. -/
structure Rest (s : State ι) : Prop where
  flags : ∀ t, s.recordFlag t = false
  transfer : ∀ t, (s.transfer t).between = false
  reader : ∀ i, (s.reader i).copying = false
  read : s.recordData.lenwrite ≤ s.recordData.lenread

/-- The start has not set a flag. -/
def StartPc.early : StartPc → Bool
  | .malloc | .setLenth _ | .memsetBuf | .semInit => true
  | _ => false

/-- The start has a buffer that is not empty. -/
def StartPc.late : StartPc → Bool
  | .memsetBuf | .semInit | .setFlags _ | .enable => true
  | _ => false

/-- The stop has cleared the structure. -/
def StopPc.late : StopPc → Bool
  | .testExit | .semPost | .semDestroy | .free => true
  | _ => false

/-- There is no session, or it has no buffer. -/
def Resting (s : State ι) : Prop :=
  s.recordData.recordLenth = 0 ∨ s.start.early = true ∨
    (s.start = .outside ∧ s.stop = .outside ∧ s.enableRecord = false)

/-- The `bytes` of the call are positive. -/
def ReaderPc.Positive : ReaderPc → Prop
  | .outside | .setExit => True
  | .testEnabled bytes | .testLenth bytes | .copy bytes | .count bytes | .clearExit bytes
  | .semWait bytes | .testWoken bytes => 0 < bytes

structure Inv (s : State ι) : Prop where
  rest : Resting s → Rest s
  exclusive : s.start = .outside ∨ s.stop = .outside
  setLenth : ∀ size, s.start = .setLenth size → size ≠ 0
  lenth : s.start.late = true → s.recordData.recordLenth ≠ 0
  clearFlags : ∀ rest, s.stop = .clearFlags rest → ∀ t, t ∉ rest → s.recordFlag t = false
  memset : s.stop = .memset → (∀ t, s.recordFlag t = false) ∧ s.enableRecord = false
  late : s.stop.late = true →
    s.recordData.recordBuf = none ∧ s.recordData.recordLenth = 0 ∧ s.enableRecord = false
  waiting : s.stop.waiting = true → Attended s
  positive : ∀ i, (s.reader i).Positive
  released : ∀ b, s.ledger.released b = 0
  used : s.ledger.misused = false
  nonzero : s.zeroModulo = false

variable {s s' : State ι} {t : Transfer} {i : ι}

lemma inv_boot : Inv (boot : State ι) :=
  ⟨fun _ => ⟨fun _ => rfl, fun _ => rfl, fun _ => rfl, Int.le_refl 0⟩, .inl rfl, nofun, nofun,
    nofun, nofun, nofun, nofun, fun _ => trivial, fun _ => rfl, rfl, rfl⟩

lemma Inv.lenth_ne_zero (hs : Inv s) (hrest : ¬ Rest s) : s.recordData.recordLenth ≠ 0 :=
  fun hzero => hrest (hs.rest (.inl hzero))

lemma Inv.not_stuck (hs : Inv s) : ¬ Stuck s := by
  rintro ⟨hwaiting, hexit, hall⟩
  obtain ⟨i, hi⟩ := hs.waiting hwaiting hexit
  rw [hall i] at hi
  cases hi

lemma Inv.safe (hs : Inv s) : Safe s := ⟨hs.nonzero, hs.used, hs.not_stuck⟩

/-- As nothing is ever freed, everything has been freed once only as long as nothing is lost. -/
lemma Inv.freedOnce_iff (hs : Inv s) :
    FreedOnce s ↔ ∀ b ∈ s.obtained, s.recordData.recordBuf = some b := by
  constructor
  · intro hfreed b hb
    by_contra hlost
    have hone := hfreed b hb hlost
    rw [hs.released b] at hone
    cases hone
  · exact fun hheld b hb hlost => absurd (hheld b hb) hlost

/-! ## Steps of the start -/

lemma Inv.of_start (hs : Inv s) (hstop : s.stop = .outside) (hstop' : s'.stop = s.stop)
    (hrest : Resting s' → Rest s') (hsetLenth : ∀ size, s'.start = .setLenth size → size ≠ 0)
    (hlenth : s'.start.late = true → s'.recordData.recordLenth ≠ 0)
    (hreader : s'.reader = s.reader) (hreleased : s'.ledger.released = s.ledger.released)
    (hused : s'.ledger.misused = false) (hnonzero : s'.zeroModulo = s.zeroModulo) : Inv s' := by
  rw [hstop] at hstop'
  refine ⟨hrest, .inr hstop', hsetLenth, hlenth, ?_, ?_, ?_, ?_, ?_, ?_, hused, ?_⟩
  · rw [hstop']
    exact nofun
  · rw [hstop']
    exact nofun
  · rw [hstop']
    exact nofun
  · rw [hstop']
    exact nofun
  · rw [hreader]
    exact hs.positive
  · rw [hreleased]
    exact hs.released
  · rw [hnonzero]
    exact hs.nonzero

lemma Inv.startRecord [DecidableEq ι] (hs : Inv s) (hok : Ok .startRecord s)
    (hstep : s.step .startRecord = some s') : Inv s' := by
  simp only [State.step] at hstep
  split_ifs at hstep with hstart
  obtain rfl := Option.some.inj hstep
  obtain ⟨hstop, henable⟩ := hok
  have hrest := hs.rest (.inr (.inr ⟨hstart, hstop, henable⟩))
  exact hs.of_start hstop rfl
    (fun _ => ⟨hrest.flags, hrest.transfer, hrest.reader, Int.le_refl 0⟩) nofun nofun rfl rfl
    hs.used rfl

lemma Inv.stop_outside (hs : Inv s) (hstart : s.start ≠ .outside) : s.stop = .outside :=
  hs.exclusive.resolve_left hstart

/-- A session with a buffer, which is being started or has been. -/
lemma not_resting (hlenth : s.recordData.recordLenth ≠ 0) (hearly : s.start.early = false)
    (hctrl : s.start = .outside → s.enableRecord = true) : ¬ Resting s := by
  rintro (hzero | h | ⟨hstart, -, henable⟩)
  · exact hlenth hzero
  · exact absurd (hearly.symm.trans h) Bool.false_ne_true
  · exact absurd (henable.symm.trans (hctrl hstart)) Bool.false_ne_true

lemma Inv.startStep (hs : Inv s) {bufSize : ℕ} {ok : Bool} (hok : Ok (.start bufSize ok) s)
    (hstep : s.startStep bufSize ok = some s') : Inv s' := by
  cases hpc : s.start with
  | outside =>
    rw [State.startStep, hpc] at hstep
    cases hstep
  | malloc =>
    have hstop := hs.stop_outside (by rw [hpc]; exact nofun)
    have hrest := hs.rest (.inr (.inl (by rw [hpc]; rfl)))
    simp only [State.startStep, hpc] at hstep
    split_ifs at hstep with hmalloc
    · obtain rfl := Option.some.inj hstep
      refine hs.of_start hstop rfl
        (fun _ => ⟨hrest.flags, hrest.transfer, hrest.reader, hrest.read⟩) ?_ nofun rfl rfl hs.used
        rfl
      rintro size ⟨⟩
      have hpos := hok hpc hmalloc
      omega
    · obtain rfl := Option.some.inj hstep
      exact hs.of_start hstop rfl
        (fun _ => ⟨hrest.flags, hrest.transfer, hrest.reader, hrest.read⟩) nofun nofun rfl rfl
        hs.used rfl
  | setLenth size =>
    have hstop := hs.stop_outside (by rw [hpc]; exact nofun)
    have hrest := hs.rest (.inr (.inl (by rw [hpc]; rfl)))
    simp only [State.startStep, hpc] at hstep
    obtain rfl := Option.some.inj hstep
    exact hs.of_start hstop rfl
      (fun _ => ⟨hrest.flags, hrest.transfer, hrest.reader, hrest.read⟩) nofun
      (fun _ => hs.setLenth size hpc) rfl rfl hs.used rfl
  | memsetBuf =>
    have hstop := hs.stop_outside (by rw [hpc]; exact nofun)
    have hrest := hs.rest (.inr (.inl (by rw [hpc]; rfl)))
    have hlenth := hs.lenth (by rw [hpc]; rfl)
    simp only [State.startStep, hpc] at hstep
    obtain rfl := Option.some.inj hstep
    exact hs.of_start hstop rfl
      (fun _ => ⟨hrest.flags, hrest.transfer, hrest.reader, hrest.read⟩) nofun (fun _ => hlenth) rfl
      (Ledger.useIf_released _).1 (Ledger.useIf_misused hs.used fun b _ => hs.released b) rfl
  | semInit =>
    have hstop := hs.stop_outside (by rw [hpc]; exact nofun)
    have hrest := hs.rest (.inr (.inl (by rw [hpc]; rfl)))
    have hlenth := hs.lenth (by rw [hpc]; rfl)
    simp only [State.startStep, hpc] at hstep
    split_ifs at hstep
    · obtain rfl := Option.some.inj hstep
      exact hs.of_start hstop rfl
        (fun _ => ⟨hrest.flags, hrest.transfer, hrest.reader, hrest.read⟩) nofun (fun _ => hlenth)
        rfl rfl hs.used rfl
    · obtain rfl := Option.some.inj hstep
      exact hs.of_start hstop rfl
        (fun _ => ⟨hrest.flags, hrest.transfer, hrest.reader, hrest.read⟩) nofun (fun _ => hlenth)
        rfl rfl hs.used rfl
  | setFlags rest =>
    have hstop := hs.stop_outside (by rw [hpc]; exact nofun)
    have hlenth := hs.lenth (by rw [hpc]; rfl)
    cases rest with
    | cons t rest =>
      simp only [State.startStep, hpc] at hstep
      obtain rfl := Option.some.inj hstep
      exact hs.of_start hstop rfl (fun h => absurd h (not_resting hlenth rfl nofun)) nofun
        (fun _ => hlenth) rfl rfl hs.used rfl
    | nil =>
      simp only [State.startStep, hpc] at hstep
      obtain rfl := Option.some.inj hstep
      exact hs.of_start hstop rfl (fun h => absurd h (not_resting hlenth rfl nofun)) nofun
        (fun _ => hlenth) rfl rfl hs.used rfl
  | enable =>
    have hstop := hs.stop_outside (by rw [hpc]; exact nofun)
    have hlenth := hs.lenth (by rw [hpc]; rfl)
    simp only [State.startStep, hpc] at hstep
    obtain rfl := Option.some.inj hstep
    exact hs.of_start hstop rfl (fun h => absurd h (not_resting hlenth rfl fun _ => rfl)) nofun
      nofun rfl rfl hs.used rfl

/-! ## Steps of the stop -/

lemma Inv.of_stop (hs : Inv s) (hstart : s.start = .outside) (hstart' : s'.start = s.start)
    (hrest : Resting s' → Rest s')
    (hclear : ∀ rest, s'.stop = .clearFlags rest → ∀ t, t ∉ rest → s'.recordFlag t = false)
    (hmemset : s'.stop = .memset → (∀ t, s'.recordFlag t = false) ∧ s'.enableRecord = false)
    (hlate : s'.stop.late = true →
      s'.recordData.recordBuf = none ∧ s'.recordData.recordLenth = 0 ∧ s'.enableRecord = false)
    (hwaiting : s'.stop.waiting = true → Attended s') (hreader : s'.reader = s.reader)
    (hledger : s'.ledger = s.ledger) (hnonzero : s'.zeroModulo = s.zeroModulo) : Inv s' := by
  rw [hstart] at hstart'
  refine ⟨hrest, .inl hstart', ?_, ?_, hclear, hmemset, hlate, hwaiting, ?_, ?_, ?_, ?_⟩
  · rw [hstart']
    exact nofun
  · rw [hstart']
    exact nofun
  · rw [hreader]
    exact hs.positive
  · rw [hledger]
    exact hs.released
  · rw [hledger]
    exact hs.used
  · rw [hnonzero]
    exact hs.nonzero

/-- While a stop is on its way, only an empty structure is at rest. -/
lemma Resting.lenth (hs : Resting s) (hstart : s.start = .outside) (hstop : s.stop ≠ .outside) :
    s.recordData.recordLenth = 0 := by
  rcases hs with hzero | hearly | ⟨-, h, -⟩
  · exact hzero
  · rw [hstart] at hearly
    cases hearly
  · exact absurd h hstop

lemma Inv.stopRecord [DecidableEq ι] (hs : Inv s) (hok : Ok .stopRecord s)
    (hstep : s.step .stopRecord = some s') : Inv s' := by
  simp only [State.step] at hstep
  split_ifs at hstep
  obtain rfl := Option.some.inj hstep
  refine hs.of_stop hok rfl (fun h => ?_) ?_ nofun nofun nofun rfl rfl rfl
  · have hrest := hs.rest (.inl (h.lenth hok nofun))
    exact ⟨hrest.flags, hrest.transfer, hrest.reader, hrest.read⟩
  · rintro rest ⟨⟩ t ht
    exact absurd (by cases t <;> decide) ht

lemma Inv.stopStep (hs : Inv s) (hok : Ok .stop s) (hstep : s.stopStep = some s') : Inv s' := by
  cases hpc : s.stop with
  | outside =>
    rw [State.stopStep, hpc] at hstep
    cases hstep
  | clearFlags rest =>
    have hstart := hs.exclusive.resolve_right (by rw [hpc]; exact nofun)
    have hclear := hs.clearFlags rest hpc
    cases rest with
    | cons t rest =>
      simp only [State.stopStep, hpc] at hstep
      obtain rfl := Option.some.inj hstep
      refine hs.of_stop hstart rfl (fun h => ?_) ?_ nofun nofun nofun rfl rfl rfl
      · have hrest := hs.rest (.inl (h.lenth hstart nofun))
        refine ⟨?_, hrest.transfer, hrest.reader, hrest.read⟩
        exact (Function.forall_update_iff _ fun _ flag => flag = false).mpr
          ⟨rfl, fun t _ => hrest.flags t⟩
      · rintro rest' ⟨⟩
        refine (Function.forall_update_iff _ fun t flag => t ∉ rest → flag = false).mpr
          ⟨fun _ => rfl, fun t' hne ht' => hclear t' ?_⟩
        rw [List.mem_cons, not_or]
        exact ⟨hne, ht'⟩
    | nil =>
      simp only [State.stopStep, hpc] at hstep
      obtain rfl := Option.some.inj hstep
      refine hs.of_stop hstart rfl (fun h => ?_) nofun (fun _ => ⟨fun t => ?_, rfl⟩) nofun nofun rfl
        rfl rfl
      · have hrest := hs.rest (.inl (h.lenth hstart nofun))
        exact ⟨hrest.flags, hrest.transfer, hrest.reader, hrest.read⟩
      · exact hclear t List.not_mem_nil
  | memset =>
    have hstart := hs.exclusive.resolve_right (by rw [hpc]; exact nofun)
    obtain ⟨hflags, henable⟩ := hs.memset hpc
    obtain ⟨⟨htransfer, hcopying⟩, hattended⟩ := hok hpc
    simp only [State.stopStep, hpc] at hstep
    obtain rfl := Option.some.inj hstep
    refine hs.of_stop hstart rfl (fun _ => ⟨hflags, fun t => ?_, hcopying, Int.le_refl 0⟩) nofun
      nofun (fun _ => ⟨rfl, rfl, henable⟩) (fun _ => hattended) rfl rfl rfl
    exact htransfer t (by cases t <;> decide)
  | testExit =>
    have hstart := hs.exclusive.resolve_right (by rw [hpc]; exact nofun)
    have hlate := hs.late (by rw [hpc]; rfl)
    have hattended := hs.waiting (by rw [hpc]; rfl)
    have hrest := hs.rest (.inl hlate.2.1)
    simp only [State.stopStep, hpc] at hstep
    obtain rfl := Option.some.inj hstep
    refine hs.of_stop hstart rfl
      (fun _ => ⟨hrest.flags, hrest.transfer, hrest.reader, hrest.read⟩) ?_ ?_ (fun _ => hlate)
      (fun _ => hattended) rfl rfl rfl
    · dsimp only
      split_ifs <;> exact nofun
    · dsimp only
      split_ifs <;> exact nofun
  | semPost =>
    have hstart := hs.exclusive.resolve_right (by rw [hpc]; exact nofun)
    have hlate := hs.late (by rw [hpc]; rfl)
    have hattended := hs.waiting (by rw [hpc]; rfl)
    have hrest := hs.rest (.inl hlate.2.1)
    simp only [State.stopStep, hpc] at hstep
    obtain rfl := Option.some.inj hstep
    exact hs.of_stop hstart rfl
      (fun _ => ⟨hrest.flags, hrest.transfer, hrest.reader, hrest.read⟩) nofun nofun
      (fun _ => hlate) (fun _ => hattended) rfl rfl rfl
  | semDestroy =>
    have hstart := hs.exclusive.resolve_right (by rw [hpc]; exact nofun)
    have hlate := hs.late (by rw [hpc]; rfl)
    have hrest := hs.rest (.inl hlate.2.1)
    simp only [State.stopStep, hpc] at hstep
    obtain rfl := Option.some.inj hstep
    exact hs.of_stop hstart rfl
      (fun _ => ⟨hrest.flags, hrest.transfer, hrest.reader, hrest.read⟩) nofun nofun
      (fun _ => hlate) nofun rfl rfl rfl
  | free =>
    have hstart := hs.exclusive.resolve_right (by rw [hpc]; exact nofun)
    have hlate := hs.late (by rw [hpc]; rfl)
    have hrest := hs.rest (.inl hlate.2.1)
    simp only [State.stopStep, hpc] at hstep
    obtain rfl := Option.some.inj hstep
    -- the pointer has been cleared: nothing is freed
    exact hs.of_stop hstart rfl
      (fun _ => ⟨hrest.flags, hrest.transfer, hrest.reader, hrest.read⟩) nofun nofun nofun nofun rfl
      (by rw [hlate.1]; rfl) rfl

/-! ## Steps of the transfers and the readers -/

/-- What the transfers and the readers leave as it is. -/
structure SameSession (s s' : State ι) : Prop where
  start : s'.start = s.start
  stop : s'.stop = s.stop
  recordFlag : s'.recordFlag = s.recordFlag
  enableRecord : s'.enableRecord = s.enableRecord
  recordBuf : s'.recordData.recordBuf = s.recordData.recordBuf
  recordLenth : s'.recordData.recordLenth = s.recordData.recordLenth
  released : s'.ledger.released = s.ledger.released

lemma Inv.of_sameSession (hs : Inv s) (hsame : SameSession s s') (hrest : Rest s → Rest s')
    (hattended : Attended s → Attended s') (hpositive : ∀ i, (s'.reader i).Positive)
    (hused : s'.ledger.misused = false) (hnonzero : s'.zeroModulo = false) : Inv s' := by
  obtain ⟨hstart, hstop, hflag, henable, hbuf, hlenth, hreleased⟩ := hsame
  refine ⟨fun hresting => hrest (hs.rest ?_), ?_, ?_, ?_, ?_, ?_, ?_, ?_, hpositive, ?_, hused,
    hnonzero⟩
  · rwa [Resting, hlenth, hstart, hstop, henable] at hresting
  · rw [hstart, hstop]
    exact hs.exclusive
  · rw [hstart]
    exact hs.setLenth
  · rw [hstart, hlenth]
    exact hs.lenth
  · rw [hstop, hflag]
    exact hs.clearFlags
  · rw [hstop, hflag, henable]
    exact hs.memset
  · rw [hstop, hbuf, hlenth, henable]
    exact hs.late
  · rw [hstop]
    exact fun hwaiting => hattended (hs.waiting hwaiting)
  · rw [hreleased]
    exact hs.released

/-- An access behind its test. -/
lemma Inv.access (hs : Inv s) (hrest : ¬ Rest s) :
    s.access.ledger.released = s.ledger.released ∧ s.access.ledger.misused = false ∧
      s.access.zeroModulo = false := by
  refine ⟨(Ledger.useIf_released _).1, ?_, ?_⟩
  · exact Ledger.useIf_misused hs.used fun b _ => hs.released b
  · show (s.zeroModulo || decide (s.recordData.recordLenth = 0)) = false
    rw [hs.nonzero, decide_eq_false (hs.lenth_ne_zero hrest)]
    rfl

lemma not_rest_of_between (t : Transfer) (hpc : (s.transfer t).between = true) : ¬ Rest s :=
  fun hrest => absurd ((hrest.transfer t).symm.trans hpc) Bool.false_ne_true

lemma not_rest_of_copying (i : ι) (hpc : (s.reader i).copying = true) : ¬ Rest s :=
  fun hrest => absurd ((hrest.reader i).symm.trans hpc) Bool.false_ne_true

lemma Rest.setTransfer (hs : Rest s) (hflag : s'.recordFlag = s.recordFlag)
    {pc : TransferPc} (htransfer : s'.transfer = Function.update s.transfer t pc)
    (hreader : s'.reader = s.reader) (hpc : pc.between = false)
    (hread : s'.recordData.lenwrite ≤ s'.recordData.lenread) : Rest s' := by
  refine ⟨?_, ?_, ?_, hread⟩
  · rw [hflag]
    exact hs.flags
  · rw [htransfer]
    exact (Function.forall_update_iff _ fun _ pc => TransferPc.between pc = false).mpr
      ⟨hpc, fun t _ => hs.transfer t⟩
  · rw [hreader]
    exact hs.reader

lemma Inv.transferStep (hs : Inv s) (size : ℕ) : Inv (s.transferStep t size) := by
  unfold State.transferStep
  split
  case h_1 hpc =>
    refine hs.of_sameSession ⟨rfl, rfl, rfl, rfl, rfl, rfl, rfl⟩ (fun hrest => ?_) id hs.positive
      hs.used hs.nonzero
    exact hrest.setTransfer rfl rfl rfl (by rw [hrest.flags t]; rfl) hrest.read
  case h_2 size hpc =>
    have hbusy : ¬ Rest s := not_rest_of_between t (by rw [hpc]; rfl)
    obtain ⟨hreleased, hused, hnonzero⟩ := hs.access hbusy
    exact hs.of_sameSession ⟨rfl, rfl, rfl, rfl, rfl, rfl, hreleased⟩
      (fun hrest => absurd hrest hbusy) id hs.positive hused hnonzero
  case h_3 size behind hpc =>
    have hbusy : ¬ Rest s := not_rest_of_between t (by rw [hpc]; rfl)
    exact hs.of_sameSession ⟨rfl, rfl, rfl, rfl, rfl, rfl, rfl⟩ (fun hrest => absurd hrest hbusy) id
      hs.positive hs.used hs.nonzero
  case h_4 hpc =>
    exact hs.of_sameSession ⟨rfl, rfl, rfl, rfl, rfl, rfl, rfl⟩
      (fun hrest => hrest.setTransfer rfl rfl rfl rfl hrest.read) id hs.positive hs.used hs.nonzero

variable [DecidableEq ι]

lemma Rest.setReader (hs : Rest s) (hflag : s'.recordFlag = s.recordFlag)
    (htransfer : s'.transfer = s.transfer) {pc : ReaderPc}
    (hreader : s'.reader = Function.update s.reader i pc) (hpc : pc.copying = false)
    (hread : s'.recordData.lenwrite ≤ s'.recordData.lenread) : Rest s' := by
  refine ⟨?_, ?_, ?_, hread⟩
  · rw [hflag]
    exact hs.flags
  · rw [htransfer]
    exact hs.transfer
  · rw [hreader]
    exact (Function.forall_update_iff _ fun _ pc => ReaderPc.copying pc = false).mpr
      ⟨hpc, fun i _ => hs.reader i⟩

lemma positive_setReader {pc : ReaderPc} (hs : ∀ i, (s.reader i).Positive) (hpc : pc.Positive) :
    ∀ i', ((s.setReader i pc).reader i').Positive :=
  (Function.forall_update_iff _ fun _ pc => ReaderPc.Positive pc).mpr ⟨hpc, fun i _ => hs i⟩

/-- A reader that goes on as one that will set `g_exit_mixer_buf`. -/
lemma attended_of_committed {pc : ReaderPc} (hpc : pc.committed = true) :
    Attended (s.setReader i pc) :=
  fun _ => ⟨i, (congrArg _ (Function.update_self ..)).trans hpc⟩

/-- A reader that was none of those. -/
lemma Attended.setReader (hs : Attended s) (hi : (s.reader i).committed = false) (pc : ReaderPc) :
    Attended (s.setReader i pc) := by
  intro hexit
  obtain ⟨j, hj⟩ := hs hexit
  have hne : j ≠ i := by
    rintro rfl
    exact absurd (hi.symm.trans hj) Bool.false_ne_true
  exact ⟨j, (congrArg _ (Function.update_of_ne hne ..)).trans hj⟩

lemma Inv.readerStep (hs : Inv s) (hstep : s.readerStep i = some s') : Inv s' := by
  have hpositive := hs.positive i
  cases hpc : s.reader i with
  | outside =>
    rw [State.readerStep, hpc] at hstep
    cases hstep
  | testEnabled bytes =>
    rw [hpc] at hpositive
    simp only [State.readerStep, hpc] at hstep
    obtain rfl := Option.some.inj hstep
    refine hs.of_sameSession ⟨rfl, rfl, rfl, rfl, rfl, rfl, rfl⟩
      (fun hrest => hrest.setReader rfl rfl rfl ?_ hrest.read)
      (fun hattended => hattended.setReader ?_ _)
      (positive_setReader hs.positive ?_) hs.used hs.nonzero
    · split_ifs <;> rfl
    · rw [hpc]
      rfl
    · split_ifs
      · exact hpositive
      · trivial
  | testLenth bytes =>
    rw [hpc] at hpositive
    simp only [State.readerStep, hpc] at hstep
    obtain rfl := Option.some.inj hstep
    refine hs.of_sameSession ⟨rfl, rfl, rfl, rfl, rfl, rfl, rfl⟩
      (fun hrest => hrest.setReader rfl rfl rfl ?_ hrest.read) (fun _ => attended_of_committed ?_)
      (positive_setReader hs.positive ?_) hs.used hs.nonzero
    · -- at rest there is nothing to read
      have hread := hrest.read
      have hbytes : 0 < bytes := hpositive
      rw [if_neg (by omega)]
      rfl
    · split_ifs <;> rfl
    · split_ifs <;> exact hpositive
  | copy bytes =>
    rw [hpc] at hpositive
    simp only [State.readerStep, hpc] at hstep
    obtain rfl := Option.some.inj hstep
    have hbusy : ¬ Rest s := not_rest_of_copying i (by rw [hpc]; rfl)
    obtain ⟨hreleased, hused, hnonzero⟩ := hs.access hbusy
    exact hs.of_sameSession ⟨rfl, rfl, rfl, rfl, rfl, rfl, hreleased⟩
      (fun hrest => absurd hrest hbusy) (fun _ => attended_of_committed rfl)
      (positive_setReader hs.positive hpositive) hused hnonzero
  | count bytes =>
    rw [hpc] at hpositive
    simp only [State.readerStep, hpc] at hstep
    obtain rfl := Option.some.inj hstep
    refine hs.of_sameSession ⟨rfl, rfl, rfl, rfl, rfl, rfl, rfl⟩ (fun hrest => ?_)
      (fun _ => attended_of_committed rfl) (positive_setReader hs.positive trivial) hs.used
      hs.nonzero
    have hread := hrest.read
    have hbytes : 0 < bytes := hpositive
    refine hrest.setReader rfl rfl rfl rfl ?_
    show s.recordData.lenwrite ≤ s.recordData.lenread + bytes
    omega
  | clearExit bytes =>
    rw [hpc] at hpositive
    simp only [State.readerStep, hpc] at hstep
    obtain rfl := Option.some.inj hstep
    exact hs.of_sameSession ⟨rfl, rfl, rfl, rfl, rfl, rfl, rfl⟩
      (fun hrest => hrest.setReader rfl rfl rfl rfl hrest.read)
      (fun _ => attended_of_committed rfl) (positive_setReader hs.positive hpositive) hs.used
      hs.nonzero
  | semWait bytes =>
    rw [hpc] at hpositive
    simp only [State.readerStep, hpc] at hstep
    split_ifs at hstep
    obtain rfl := Option.some.inj hstep
    exact hs.of_sameSession ⟨rfl, rfl, rfl, rfl, rfl, rfl, rfl⟩
      (fun hrest => hrest.setReader rfl rfl rfl rfl hrest.read)
      (fun _ => attended_of_committed rfl) (positive_setReader hs.positive hpositive) hs.used
      hs.nonzero
  | testWoken bytes =>
    rw [hpc] at hpositive
    simp only [State.readerStep, hpc] at hstep
    obtain rfl := Option.some.inj hstep
    refine hs.of_sameSession ⟨rfl, rfl, rfl, rfl, rfl, rfl, rfl⟩
      (fun hrest => hrest.setReader rfl rfl rfl ?_ hrest.read) (fun _ => attended_of_committed ?_)
      (positive_setReader hs.positive ?_) hs.used hs.nonzero
    · split_ifs <;> rfl
    · split_ifs <;> rfl
    · split_ifs
      · exact hpositive
      · trivial
  | setExit =>
    simp only [State.readerStep, hpc] at hstep
    obtain rfl := Option.some.inj hstep
    exact hs.of_sameSession ⟨rfl, rfl, rfl, rfl, rfl, rfl, rfl⟩
      (fun hrest => hrest.setReader rfl rfl rfl rfl hrest.read)
      (fun _ hexit => absurd hexit.symm Bool.false_ne_true)
      (positive_setReader hs.positive trivial) hs.used hs.nonzero

/-! ## Runs -/

/-- A step under the condition keeps the invariant. -/
lemma Inv.step {a : Act ι} (hs : Inv s) (hok : Ok a s) (hstep : s.step a = some s') : Inv s' := by
  cases a with
  | startRecord => exact hs.startRecord hok hstep
  | start bufSize ok => exact hs.startStep hok hstep
  | stopRecord => exact hs.stopRecord hok hstep
  | stop => exact hs.stopStep hok hstep
  | transfer t size =>
    obtain rfl := Option.some.inj hstep
    exact hs.transferStep size
  | mixerBuf i bytes =>
    simp only [State.step] at hstep
    split_ifs at hstep with houtside
    obtain rfl := Option.some.inj hstep
    exact hs.of_sameSession ⟨rfl, rfl, rfl, rfl, rfl, rfl, rfl⟩
      (fun hrest => hrest.setReader rfl rfl rfl rfl hrest.read)
      (fun hattended => hattended.setReader (by rw [houtside]; rfl) _)
      (positive_setReader hs.positive hok) hs.used hs.nonzero
  | reader i => exact hs.readerStep hstep

/-- **Recording a call.**  In every run that meets the condition no modulo by zero is computed, no
freed buffer is accessed and no stop waits for nobody.  The buffers are freed exactly once only as
long as no session has been cleared: a stop frees nothing. -/
theorem session_of_run {s : State ι} (hrun : Framework.Runs State.step Ok boot s) :
    Safe s ∧ (FreedOnce s ↔ ∀ b ∈ s.obtained, s.recordData.recordBuf = some b) := by
  have hinv : Inv s :=
    Framework.Runs.invariant (fun hs hok hstep => hs.step hok hstep) inv_boot hrun
  exact ⟨hinv.safe, hinv.freedOnce_iff⟩

/-- A start that succeeds, with a stream of eight bytes. -/
def startActs : List (Act Unit) := .startRecord :: List.replicate 10 (.start 8 true)

/-- A block of each direction, and a reader that gets it. -/
def blockActs : List (Act Unit) :=
  List.replicate 4 (.transfer .bpDownload 8) ++ List.replicate 4 (.transfer .bpUpload 8) ++
    .mixerBuf () 8 :: List.replicate 5 (.reader ())

def stopActs : List (Act Unit) := .stopRecord :: List.replicate 9 .stop

theorem session_of_run_block : ∃ s : State Unit, Framework.Runs State.step Ok boot s ∧
    (s.obtained = [0] ∧ s.stop = .outside ∧ s.recordData = .zero) ∧
      Safe s ∧ (FreedOnce s ↔ ∀ b ∈ s.obtained, s.recordData.recordBuf = some b) := by
  obtain ⟨s, hrun, hover⟩ := Framework.exists_runs State.step Ok
    (fun s => s.obtained = [0] ∧ s.stop = .outside ∧ s.recordData = .zero) (s := boot)
    (startActs ++ blockActs ++ stopActs) (by decide +kernel)
  exact ⟨s, hrun, hover, session_of_run hrun⟩

/-- A stop that nobody has read before waits for ever; a transfer that has seen its flag before the
stop computes modulo zero behind it; and the buffer of a session that is over is not freed. -/
theorem stop_clears_everything :
    (∃ s : State Unit, Framework.Runs State.step (fun _ _ => True) boot s ∧ Stuck s) ∧
      (∃ s : State Unit, Framework.Runs State.step (fun _ _ => True) boot s ∧
        s.zeroModulo = true) ∧
      ∃ s : State Unit, Framework.Runs State.step (fun _ _ => True) boot s ∧ s.stop = .outside ∧
        ¬ FreedOnce s := by
  refine ⟨?_, ?_, ?_⟩
  · exact Framework.exists_runs State.step (fun _ _ => True) Stuck
      (startActs ++ stopActs.take 7) (by decide +kernel)
  · exact Framework.exists_runs State.step (fun _ _ => True) (fun s => s.zeroModulo = true)
      (startActs ++ .transfer .bpUpload 8 :: stopActs.take 7 ++ [.transfer .bpUpload 8])
      (by decide +kernel)
  · obtain ⟨s, hrun, hstop, hobtained, hbuf, hreleased⟩ := Framework.exists_runs State.step
      (fun _ _ => True) (fun s : State Unit => s.stop = .outside ∧ s.obtained = [0] ∧
        s.recordData.recordBuf = none ∧ s.ledger.released 0 = 0) (s := boot)
      (startActs ++ blockActs ++ stopActs) (by decide +kernel)
    refine ⟨s, hrun, hstop, fun hfreed => ?_⟩
    have hone := hfreed 0 (by rw [hobtained]; exact List.mem_singleton_self 0)
      (by rw [hbuf]; exact nofun)
    rw [hreleased] at hone
    cases hone

end Softwinner.Audio.RecordSession

import Softwinner.Audio.VoiceThreads
import Softwinner.Framework.Heap
import Softwinner.Framework.Runs

/-!
# The streams of a call

`init_stream` and `close_stream` of `codec_utils.c`, and who calls them: the voice threads and
`plan_two_exit_voice` of `planTwo/manage.c`, and the recorder thread of `record.c`.  A
`close_stream` leaves the pointers to the handle and to the buffer where they are.

The controller's calls are taken one after the other; between two of them every voice thread runs as
far as it gets.  A call is given by what it does to the pointers of the streams, in its order.
`streams_iff` says for every sequence of calls exactly when each handle and each buffer is released
once and not used behind its release.
-/

namespace Softwinner.Audio.StreamLifecycle

open Framework (HeapOp OpKind Heap Sees Status slotRun)
open VoiceThreads (Kind Direction)

/-! ## Streams -/

/-- The six streams of `planTwo/manage.c`, and `record_stream`. -/
inductive Stream
  | btSend | btReceive | codecSend | codecReceive | bpSend | bpReceive | record
  deriving DecidableEq

/-- In the order in which `plan_two_exit_voice` closes them. -/
def voiceStreams : List Stream :=
  [.btSend, .btReceive, .codecSend, .codecReceive, .bpSend, .bpReceive]

/-- `direction == SENDER`. -/
def Stream.sender : Stream → Bool
  | .btSend | .codecSend | .bpSend | .record => true
  | .btReceive | .codecReceive | .bpReceive => false

/-- The pointers of a `struct dev_stream`. -/
inductive Field
  | dev | buf
  deriving DecidableEq

/-- A null slot is a null pointer, or `&bad_pcm`, on which `pcm_close` has no effect.  An access
through a null pointer does nothing here. -/
abbrev Slot := Stream × Field

/-- How an `init_stream` goes. -/
inductive Opening
  /-- There is no node for the device. -/
  | noNode
  /-- `pcm_open` has no memory, and returns `&bad_pcm`. -/
  | badPcm
  /-- `pcm_open` returns a handle that is not ready. -/
  | notReady
  /-- There is no memory for the buffer of a sender. -/
  | noBuf
  | ok
  deriving DecidableEq

/-- `init_stream` returns 0. -/
def Opening.opened (x : Stream) : Opening → Bool
  | .noNode | .badPcm | .notReady => false
  | .noBuf => !x.sender
  | .ok => true

def initStream (x : Stream) : Opening → List (HeapOp Slot)
  | .noNode => []
  | .badPcm => [⟨.clear, x, .dev⟩]
  | .notReady => [⟨.alloc, x, .dev⟩, ⟨.use, x, .dev⟩]
  | .noBuf =>
    if x.sender then
      -- the handle is closed, and the pointer stays
      [⟨.alloc, x, .dev⟩, ⟨.use, x, .dev⟩, ⟨.clear, x, .buf⟩, ⟨.release, x, .dev⟩]
    else [⟨.alloc, x, .dev⟩, ⟨.use, x, .dev⟩, ⟨.use, x, .buf⟩]
  | .ok =>
    if x.sender then
      [⟨.alloc, x, .dev⟩, ⟨.use, x, .dev⟩, ⟨.alloc, x, .buf⟩, ⟨.use, x, .buf⟩]
    else [⟨.alloc, x, .dev⟩, ⟨.use, x, .dev⟩, ⟨.use, x, .buf⟩]

def closeStream (x : Stream) : List (HeapOp Slot) := [⟨.release, x, .buf⟩, ⟨.release, x, .dev⟩]

/-- `memset(&stream, 0, sizeof(struct dev_stream))`. -/
def clearStream (x : Stream) : List (HeapOp Slot) := [⟨.clear, x, .dev⟩, ⟨.clear, x, .buf⟩]

/-! ## Voices -/

/-- `stream_receiver` of the `struct stream_transfer`. -/
def receiver : Kind → Direction → Stream
  | _, .up => .bpReceive
  | .bp, .down => .codecReceive
  | .bt, .down => .btReceive

/-- `stream_sender`. -/
def sender : Kind → Direction → Stream
  | .bp, .up => .codecSend
  | .bt, .up => .btSend
  | _, .down => .bpSend

def streams (k : Kind) (d : Direction) : List Stream := [receiver k d, sender k d]

/-- What a pass of `stream_transfer` uses. -/
def streamTransfer (k : Kind) (d : Direction) : List (HeapOp Slot) :=
  [⟨.use, sender k d, .dev⟩, ⟨.use, receiver k d, .dev⟩, ⟨.use, sender k d, .buf⟩]

/-- A thread that has been woken opens its streams, as far as it gets. -/
def session (k : Kind) (d : Direction) (o : Opening × Opening) : List (HeapOp Slot) :=
  initStream (receiver k d) o.1 ++
    if o.1.opened (receiver k d) then
      initStream (sender k d) o.2 ++
        if o.2.opened (sender k d) then streamTransfer k d else []
    else []

/-- Both streams are opened. -/
def opens (k : Kind) (d : Direction) (o : Opening × Opening) : Bool :=
  o.1.opened (receiver k d) && o.2.opened (sender k d)

/-- A thread in `stream_transfer` sees that its run flag has been cleared. -/
def finish (k : Kind) (d : Direction) : List (HeapOp Slot) :=
  streamTransfer k d ++ (streams k d).flatMap closeStream

/-- The controller stops all four streams. -/
def pcmStop (k : Kind) : List (HeapOp Slot) :=
  [⟨.use, sender k .up, .dev⟩, ⟨.use, receiver k .up, .dev⟩, ⟨.use, sender k .down, .dev⟩,
    ⟨.use, receiver k .down, .dev⟩]

/-- The exit flag of a `struct stream_transfer`, and how many of its threads sleep on its semaphore
and how many are in `stream_transfer`.  A token that no thread takes is taken later, with the run
flag cleared, and has no effect. -/
structure Voice where
  exit : Bool
  sleeping : ℕ
  transferring : ℕ

namespace Voice

variable (v : Voice)

/-- Behind a start; `opened` when the thread opens its streams. -/
def started (opened : Bool) : Voice :=
  if 0 < v.sleeping then
    ⟨!opened, v.sleeping - 1, if opened then v.transferring + 1 else v.transferring⟩
  else { v with exit := true }

/-- The threads have gone back to sleep. -/
def stopped : Voice := ⟨decide (0 < v.transferring) || v.exit, v.sleeping + v.transferring, 0⟩

/-- Behind a `plan_two_init_voice`, with one more thread. -/
def created : Voice := ⟨true, v.sleeping + v.transferring + 1, 0⟩

/-- Behind a `plan_two_exit_voice`: a thread that slept returns, and one that was in
`stream_transfer` does not get beyond its streams, which are null now. -/
def exited : Voice := ⟨false, v.sleeping - 1, 0⟩

end Voice

/-! ## The recorder -/

/-- `struct record_private`, less the buffer of `start_record`. -/
structure Recorder where
  fromAdc : Bool
  opened : Bool
  run : Bool
  exit : Bool
  sem : ℕ
  /-- The thread is in `record_data`. -/
  session : Bool

namespace Recorder

variable (r : Recorder)

/-- A pass of `record_data`; behind it, `is_adc_stream_opened` is `is_record_from_adc`. -/
def body (o : Opening) : List (HeapOp Slot) :=
  if r.fromAdc then
    (if r.opened then [] else initStream .record o) ++
      [⟨.use, .record, .dev⟩, ⟨.use, .record, .buf⟩]
  else if r.opened then closeStream .record else []

/-- `exit_flag` behind the pass; `ok` is what `pcm_read` returns. -/
def failed (o : Opening) (ok : Bool) : Bool :=
  r.fromAdc && ((!r.opened && !o.opened .record) || !ok)

/-- The pass, and the end of the session if it has failed. -/
def pass (o : Opening) (ok : Bool) : List (HeapOp Slot) × Recorder :=
  if r.failed o ok then
    (r.body o ++ closeStream .record, { r with opened := false, exit := true, session := false })
  else (r.body o, { r with opened := r.fromAdc, session := true })

/-- `stop_record`; a thread in its session makes a last pass, and closes the stream if it is
opened. -/
def stop (o : Opening) : List (HeapOp Slot) :=
  (if r.fromAdc then [⟨.use, .record, .dev⟩] else []) ++
    ((if r.session then r.body o ++ (if r.fromAdc then closeStream .record else []) else []) ++
      if r.fromAdc then clearStream .record else [])

end Recorder

/-! ## Calls -/

structure State where
  voice : Kind → Direction → Voice
  /-- The `struct stream_transfer` have their streams. -/
  ready : Bool
  recorder : Recorder
  heap : Heap Slot

/-- Behind `init_record`, and before the first `plan_two_init_voice`. -/
def boot : State :=
  ⟨fun _ _ => ⟨false, 0, 0⟩, false, ⟨false, false, false, false, 0, false⟩, ⟨.empty, fun _ => none⟩⟩

inductive Act
  | initVoice
  /-- `plan_two_start_voice` or `plan_two_start_bt_voice`. -/
  | startVoice (k : Kind) (o : Direction → Opening × Opening)
  | stopVoice (k : Kind)
  | exitVoice
  | setRecordSource (fromAdc : Bool)
  | startRecord
  /-- The recorder thread makes a pass, if it has a session or is given one. -/
  | record (o : Opening) (ok : Bool)
  | stopRecord (o : Opening)

namespace State

variable (s : State)

/-- What each thread in `stream_transfer` of this direction does. -/
def threads (ops : List (HeapOp Slot)) (k : Kind) (d : Direction) : List (HeapOp Slot) :=
  (List.replicate (s.voice k d).transferring ops).flatten

/-- The same for all four directions. -/
def allThreads (ops : Kind → Direction → List (HeapOp Slot)) : List (HeapOp Slot) :=
  s.threads (ops .bp .down) .bp .down ++ (s.threads (ops .bp .up) .bp .up ++
    (s.threads (ops .bt .down) .bt .down ++ s.threads (ops .bt .up) .bt .up))

/-- A sleeping thread takes the token of a start. -/
def woken (k : Kind) (o : Direction → Opening × Opening) (d : Direction) : List (HeapOp Slot) :=
  if 0 < (s.voice k d).sleeping then session k d (o d) else []

/-- What a call does to the pointers. -/
def ops : Act → List (HeapOp Slot)
  | .initVoice => voiceStreams.flatMap clearStream ++ s.allThreads finish
  | .startVoice k o => s.woken k o .down ++ s.woken k o .up
  | .stopVoice k =>
    pcmStop k ++ (s.threads (finish k .down) k .down ++ s.threads (finish k .up) k .up)
  | .exitVoice => voiceStreams.flatMap closeStream ++ s.allThreads streamTransfer
  | .setRecordSource _ | .startRecord => []
  | .record o ok =>
    if s.recorder.session ∨ 0 < s.recorder.sem ∧ s.recorder.run then (s.recorder.pass o ok).1
    else []
  | .stopRecord o => s.recorder.stop o

/-- The voices of this kind are changed. -/
def setVoices (k : Kind) (v : Direction → Voice) : State :=
  { s with voice := fun k' d => if k' = k then v d else s.voice k' d }

/-- The flags and the threads behind a call; none when it does not return. -/
def ctrl : Act → Option State
  | .initVoice => some { s with voice := fun k d => (s.voice k d).created, ready := true }
  | .startVoice k o =>
    -- it waits for the threads of the other kind
    if (s.voice k.other .down).exit ∧ (s.voice k.other .up).exit then
      some (s.setVoices k fun d => (s.voice k d).started (opens k d (o d)))
    else none
  | .stopVoice k =>
    if s.ready ∧ (s.voice k .down).stopped.exit ∧ (s.voice k .up).stopped.exit then
      some (s.setVoices k fun d => (s.voice k d).stopped)
    else none
  | .exitVoice => some { s with voice := fun k d => (s.voice k d).exited, ready := false }
  | .setRecordSource fromAdc => some { s with recorder := { s.recorder with fromAdc := fromAdc } }
  | .startRecord =>
    some { s with
      recorder := { s.recorder with
        run := true, opened := false, exit := false, sem := s.recorder.sem + 1 } }
  | .record o ok =>
    if s.recorder.session then some { s with recorder := (s.recorder.pass o ok).2 }
    else if 0 < s.recorder.sem then
      if s.recorder.run then
        some { s with
          recorder := ({ s.recorder with sem := s.recorder.sem - 1, exit := false }.pass o ok).2 }
      else some { s with recorder := { s.recorder with sem := s.recorder.sem - 1 } }
    else none
  | .stopRecord _ =>
    if s.recorder.session ∨ s.recorder.exit then
      some { s with recorder := ⟨false, false, false, true, 0, false⟩ }
    else none

def step (a : Act) : Option State :=
  (s.ctrl a).map fun s' => { s' with heap := s.heap.run (s.ops a) }

end State

/-! ## The property, and the condition -/

/-- Behind a `plan_two_exit_voice` everything has been released exactly once, the recorder's stream
apart. -/
def Released (a : Act) (_ s' : State) : Prop :=
  a = .exitVoice → ∀ h, h < s'.heap.ledger.next →
    (∀ f, s'.heap.ptr (.record, f) ≠ some h) → s'.heap.ledger.released h = 1

/-- An `init_stream` that gets as far as `pcm_open` does not find the stream open. -/
def InitOk (st : Slot → Status) (x : Stream) (o : Opening) : Prop :=
  o = .noNode ∨ st (x, .dev) ≠ .live

/-- The pass of the recorder thread that opens its stream: it reads from the stream even if that has
failed, and closes it then. -/
def PassOk (st : Slot → Status) : Opening → Prop
  | .noNode => st (.record, .dev) ≠ .dangling ∧ st (.record, .buf) ≠ .dangling
  | .badPcm | .notReady => st (.record, .dev) ≠ .live ∧ st (.record, .buf) ≠ .dangling
  | .noBuf => False
  | .ok => st (.record, .dev) ≠ .live

/-- No stream is cleared or opened while it is open; a stop finds no handle that has been closed; an
exit finds no stream that has been closed, and no thread that is using one; the recorder meets
`PassOk`, and a stop from the codec finds the stream in use, or never opened. -/
def Ok : Act → State → Prop
  | .initVoice, s => ∀ x ∈ voiceStreams, s.heap.status (x, .dev) ≠ .live
  | .startVoice k o, s => ∀ d, 0 < (s.voice k d).sleeping →
      InitOk s.heap.status (receiver k d) (o d).1 ∧
      ((o d).1.opened (receiver k d) = true → InitOk s.heap.status (sender k d) (o d).2)
  | .stopVoice k, s => ∀ d, s.heap.status (sender k d, .dev) ≠ .dangling ∧
      s.heap.status (receiver k d, .dev) ≠ .dangling
  | .exitVoice, s => (∀ x ∈ voiceStreams, ∀ f, s.heap.status (x, f) ≠ .dangling) ∧
      ∀ k d, (s.voice k d).transferring = 0
  | .setRecordSource _, _ | .startRecord, _ => True
  | .record o _, s => s.recorder.session = true ∨ 0 < s.recorder.sem ∧ s.recorder.run = true →
      s.recorder.fromAdc = true → s.recorder.opened = false → PassOk s.heap.status o
  | .stopRecord o, s => s.recorder.fromAdc = true →
      s.heap.status (.record, .dev) ≠ .dangling ∧
        if s.recorder.session then s.recorder.opened = false → PassOk s.heap.status o
        else s.heap.status (.record, .dev) ≠ .live

/-! ## The invariant -/

/-- A receiver has no buffer, and a sender's is open only together with its handle. -/
structure StreamOk (x : Stream) (dev buf : Status) : Prop where
  receiver : x.sender = false → buf = .null
  dev : buf = .live → dev = .live

/-- The streams of a thread in `stream_transfer` are open. -/
structure Opened (k : Kind) (d : Direction) (st : Slot → Status) : Prop where
  receiver_dev : st (receiver k d, .dev) = .live
  sender_dev : st (sender k d, .dev) = .live
  sender_buf : st (sender k d, .buf) = .live

/-- The streams of the voices and of the recorder are what their threads take them for. -/
structure Shape (voice : Kind → Direction → Voice) (r : Recorder) (st : Slot → Status) : Prop where
  stream : ∀ x, StreamOk x (st (x, .dev)) (st (x, .buf))
  single : ∀ k d, (voice k d).transferring ≤ 1
  /-- The two kinds share a stream in each direction. -/
  apart : ∀ k d, 0 < (voice k d).transferring → (voice k.other d).transferring = 0
  transferring : ∀ k d, 0 < (voice k d).transferring → Opened k d st
  opened : r.opened = true →
    r.session = true ∧ st (.record, .dev) = .live ∧ st (.record, .buf) = .live

structure Inv (s : State) : Prop where
  wellFormed : s.heap.WellFormed
  kept : s.heap.Kept
  shape : Shape s.voice s.recorder s.heap.status

lemma inv_boot : Inv boot :=
  ⟨⟨nofun, nofun, fun _ _ => rfl⟩, ⟨fun _ h => absurd h (Nat.not_lt_zero _), rfl⟩,
    ⟨fun _ => ⟨fun _ => rfl, nofun⟩, fun _ _ => Nat.zero_le _, nofun, nofun, nofun⟩⟩

/-! ## One stream -/

variable {x y : Stream} {f : Field} {o : Opening}

/-- Operations that are of one kind on both pointers of a stream. -/
lemma slotRun_both {ops : List (HeapOp Slot)} {kind : OpKind} {slot : Slot} {st : Status}
    (hslot : ∀ op ∈ ops, op.slot.1 = x)
    (hkind : ∀ f, slotRun (x, f) ops st = kind.next st) :
    slotRun slot ops st = if x = slot.1 then kind.next st else some st := by
  obtain ⟨y, f⟩ := slot
  split_ifs with hxy
  · rw [← hkind f, hxy]
  · exact Framework.slotRun_of_forall_ne fun op hop heq =>
      hxy ((hslot op hop).symm.trans (congrArg Prod.fst heq))

lemma slotRun_closeStream {slot : Slot} {st : Status} : slotRun slot (closeStream x) st =
    if x = slot.1 then OpKind.next .release st else some st := by
  refine slotRun_both (by simp [closeStream]) fun f => ?_
  cases f <;> simp [closeStream, slotRun]

lemma slotRun_clearStream {slot : Slot} {st : Status} : slotRun slot (clearStream x) st =
    if x = slot.1 then OpKind.next .clear st else some st := by
  refine slotRun_both (by simp [clearStream]) fun f => ?_
  cases f <;> simp [clearStream, slotRun]

lemma slot_initStream : ∀ op ∈ initStream x o, op.slot.1 = x := by
  cases o <;> simp only [initStream] <;> (try split_ifs) <;> simp

lemma slotRun_initStream_of_ne {st : Status} (hne : x ≠ y) :
    slotRun (y, f) (initStream x o) st = some st :=
  Framework.slotRun_of_forall_ne fun op hop heq =>
    hne ((slot_initStream op hop).symm.trans (congrArg Prod.fst heq))

/-- A receiver has no buffer, so that no memory is asked for. -/
lemma slotRun_initStream_receiver (hx : x.sender = false) (ho : o = .noBuf ∨ o = .ok)
    {dev : Status} (hlive : dev ≠ .live) :
    slotRun (x, .dev) (initStream x o) dev = some .live ∧
      slotRun (x, .buf) (initStream x o) .null = some .null := by
  rcases ho with rfl | rfl
  · simp [initStream, slotRun, hx, OpKind.next]
  · simp [initStream, slotRun, hx, OpKind.next]

/-- An `init_stream` that does not find the stream open. -/
lemma initStream_spec {dev buf : Status} (hx : StreamOk x dev buf)
    (ho : o = .noNode ∨ dev ≠ .live) : ∃ dev' buf',
      slotRun (x, .dev) (initStream x o) dev = some dev' ∧
      slotRun (x, .buf) (initStream x o) buf = some buf' ∧ StreamOk x dev' buf' ∧
      (o.opened x = true → dev' = .live ∧ (x.sender = true → buf' = .live)) ∧
      (dev = .live → dev' = dev ∧ buf' = buf) ∧
      (o = .badPcm ∨ o = .notReady → dev' ≠ .dangling ∧ buf' = buf) := by
  obtain ⟨hreceiver, hdev⟩ := hx
  have hfalse : ∀ {p : Prop}, false = true → p := fun h => absurd h Bool.false_ne_true
  cases o with
  | noNode =>
    exact ⟨dev, buf, rfl, rfl, ⟨hreceiver, hdev⟩, hfalse, fun _ => ⟨rfl, rfl⟩,
      fun h => absurd h (by decide)⟩
  | badPcm =>
    have hlive := ho.resolve_left (by decide)
    refine ⟨.null, buf, ?_, ?_, ⟨hreceiver, fun h => absurd (hdev h) hlive⟩, hfalse,
      fun h => absurd h hlive, fun _ => ⟨by decide, rfl⟩⟩
    · simp [initStream, slotRun, OpKind.next_clear hlive]
    · simp [initStream, slotRun]
  | notReady =>
    have hlive := ho.resolve_left (by decide)
    refine ⟨.live, buf, ?_, ?_, ⟨hreceiver, fun _ => rfl⟩, hfalse, fun h => absurd h hlive,
      fun _ => ⟨by decide, rfl⟩⟩
    · simp [initStream, slotRun, OpKind.next]
    · simp [initStream, slotRun]
  | noBuf =>
    have hlive := ho.resolve_left (by decide)
    have hbuf : buf ≠ .live := fun h => hlive (hdev h)
    cases hx : x.sender with
    | false =>
      obtain rfl := hreceiver hx
      obtain ⟨hdev', hbuf'⟩ := slotRun_initStream_receiver hx (.inl rfl) hlive
      exact ⟨.live, .null, hdev', hbuf', ⟨fun _ => rfl, fun _ => rfl⟩, fun _ => ⟨rfl, hfalse⟩,
        fun h => absurd h hlive, fun h => absurd h (by decide)⟩
    | true =>
      refine ⟨.dangling, .null, ?_, ?_, ⟨fun _ => rfl, fun h => absurd h (by decide)⟩, ?_,
        fun h => absurd h hlive, fun h => absurd h (by decide)⟩
      · simp [initStream, slotRun, hx, OpKind.next]
      · simp [initStream, slotRun, hx, OpKind.next_clear hbuf]
      · intro h
        simp [Opening.opened, hx] at h
  | ok =>
    have hlive := ho.resolve_left (by decide)
    have hbuf : buf ≠ .live := fun h => hlive (hdev h)
    cases hx : x.sender with
    | false =>
      obtain rfl := hreceiver hx
      obtain ⟨hdev', hbuf'⟩ := slotRun_initStream_receiver hx (.inr rfl) hlive
      exact ⟨.live, .null, hdev', hbuf', ⟨fun _ => rfl, fun _ => rfl⟩, fun _ => ⟨rfl, hfalse⟩,
        fun h => absurd h hlive, fun h => absurd h (by decide)⟩
    | true =>
      refine ⟨.live, .live, ?_, ?_, ⟨fun h => absurd (h.symm.trans hx) Bool.false_ne_true,
        fun _ => rfl⟩, fun _ => ⟨rfl, fun _ => rfl⟩, fun h => absurd h hlive,
        fun h => absurd h (by decide)⟩
      · simp [initStream, slotRun, hx, OpKind.next]
      · simp [initStream, slotRun, hx, OpKind.next]

/-! ## Several streams -/

variable {s s' : State} {k : Kind} {d : Direction} {st st' : Slot → Status}

/-- A stream that is open. -/
lemma ne_dangling_of_live (hdev : st (x, .dev) = .live) (hbuf : st (x, .buf) = .live) :
    ∀ f, st (x, f) ≠ .dangling
  | .dev => hdev ▸ nofun
  | .buf => hbuf ▸ nofun

lemma forall_streamTransfer {P : HeapOp Slot → Prop} (hsender : P ⟨.use, sender k d, .dev⟩)
    (hreceiver : P ⟨.use, receiver k d, .dev⟩) (hbuf : P ⟨.use, sender k d, .buf⟩) :
    ∀ op ∈ streamTransfer k d, P op :=
  List.forall_mem_cons.mpr
    ⟨hsender, List.forall_mem_cons.mpr ⟨hreceiver, List.forall_mem_singleton.mpr hbuf⟩⟩

lemma forall_pcmStop {P : HeapOp Slot → Prop}
    (h : ∀ d, P ⟨.use, sender k d, .dev⟩ ∧ P ⟨.use, receiver k d, .dev⟩) :
    ∀ op ∈ pcmStop k, P op := by
  intro op hop
  simp only [pcmStop, List.mem_cons, List.not_mem_nil, or_false] at hop
  rcases hop with rfl | rfl | rfl | rfl
  · exact (h .up).1
  · exact (h .up).2
  · exact (h .down).1
  · exact (h .down).2

/-- A thread uses only streams that are open. -/
lemma Opened.sees (hst : Opened k d st) : Sees (streamTransfer k d) st st :=
  Sees.use (forall_streamTransfer ⟨rfl, hst.sender_dev ▸ nofun⟩ ⟨rfl, hst.receiver_dev ▸ nofun⟩
    ⟨rfl, hst.sender_buf ▸ nofun⟩)

/-- Streams that are left open. -/
lemma Opened.congr (hst : Opened k d st)
    (hsame : ∀ x ∈ streams k d, st (x, .dev) = .live → ∀ f, st' (x, f) = st (x, f)) :
    Opened k d st' := by
  obtain ⟨hreceiver, hsender, hbuf⟩ := hst
  have hmem : sender k d ∈ streams k d := List.mem_cons_of_mem _ List.mem_cons_self
  exact ⟨(hsame _ List.mem_cons_self hreceiver _).trans hreceiver,
    (hsame _ hmem hsender _).trans hsender, (hsame _ hmem hsender _).trans hbuf⟩

/-- Some streams are closed. -/
def closed (xs : List Stream) (st : Slot → Status) (slot : Slot) : Status :=
  if slot.1 ∈ xs then (st slot).released else st slot

/-- Some streams are cleared. -/
def cleared (xs : List Stream) (st : Slot → Status) (slot : Slot) : Status :=
  if slot.1 ∈ xs then .null else st slot

lemma slotRun_flatMap {kind : OpKind} {g : Stream → List (HeapOp Slot)} {slot : Slot}
    (hg : ∀ x st, slotRun slot (g x) st = if x = slot.1 then kind.next st else some st)
    {xs : List Stream} (hxs : xs.Nodup) (st : Status) :
    slotRun slot (xs.flatMap g) st = if slot.1 ∈ xs then kind.next st else some st := by
  induction xs generalizing st with
  | nil => rfl
  | cons x xs ih =>
    obtain ⟨hx, hxs⟩ := List.nodup_cons.mp hxs
    rw [List.flatMap_cons, Framework.slotRun_append, hg]
    by_cases heq : x = slot.1
    · have hrest : slotRun slot (xs.flatMap g) = some := funext fun st => by
        rw [ih hxs, if_neg (heq ▸ hx)]
      rw [if_pos heq, if_pos (heq ▸ List.mem_cons_self), hrest, Option.bind_fun_some]
    · rw [if_neg heq, Option.bind_some, ih hxs]
      simp only [List.mem_cons, Ne.symm heq, false_or]

lemma sees_closeStreams {xs : List Stream} (hxs : xs.Nodup)
    (hst : ∀ x ∈ xs, ∀ f, st (x, f) ≠ .dangling) :
    Sees (xs.flatMap closeStream) st (closed xs st) := by
  intro slot
  rw [slotRun_flatMap (fun _ _ => slotRun_closeStream) hxs, closed]
  split_ifs with hslot
  · exact OpKind.next_release (hst slot.1 hslot slot.2)
  · rfl

lemma sees_clearStreams {xs : List Stream} (hxs : xs.Nodup)
    (hst : ∀ x ∈ xs, ∀ f, st (x, f) ≠ .live) :
    Sees (xs.flatMap clearStream) st (cleared xs st) := by
  intro slot
  rw [slotRun_flatMap (fun _ _ => slotRun_clearStream) hxs, cleared]
  split_ifs with hslot
  · exact OpKind.next_clear (hst slot.1 hslot slot.2)
  · rfl

lemma nodup_voiceStreams : voiceStreams.Nodup := by decide

lemma mem_voiceStreams (hx : x ≠ .record) : x ∈ voiceStreams := by
  cases x <;> first | decide | exact absurd rfl hx

lemma record_notMem : Stream.record ∉ voiceStreams := by decide

/-- A stream stays what it was when it is closed. -/
lemma StreamOk.closed (hx : StreamOk x (st (x, .dev)) (st (x, .buf))) (xs : List Stream) :
    StreamOk x (closed xs st (x, .dev)) (closed xs st (x, .buf)) := by
  unfold StreamLifecycle.closed
  split_ifs with hmem
  · refine ⟨fun hsender => ?_, fun hlive => absurd hlive Status.released_ne_live⟩
    rw [hx.receiver hsender]
    rfl
  · exact hx

lemma StreamOk.cleared (hx : StreamOk x (st (x, .dev)) (st (x, .buf))) (xs : List Stream) :
    StreamOk x (cleared xs st (x, .dev)) (cleared xs st (x, .buf)) := by
  unfold StreamLifecycle.cleared
  split_ifs
  · exact ⟨fun _ => rfl, nofun⟩
  · exact hx

/-! ## Initialisation and exit -/

lemma threads_nil (hnone : (s.voice k d).transferring = 0) (ops : List (HeapOp Slot)) :
    s.threads ops k d = [] := by
  rw [State.threads, hnone]
  rfl

lemma threads_one (hone : (s.voice k d).transferring = 1) (ops : List (HeapOp Slot)) :
    s.threads ops k d = ops := by
  rw [State.threads, hone]
  exact List.append_nil ops

lemma allThreads_nil (hnone : ∀ k d, (s.voice k d).transferring = 0)
    (ops : Kind → Direction → List (HeapOp Slot)) : s.allThreads ops = [] := by
  rw [State.allThreads, threads_nil (hnone ..), threads_nil (hnone ..), threads_nil (hnone ..),
    threads_nil (hnone ..)]
  rfl

/-- The recorder's stream is not among those of the voices. -/
lemma Shape.recorder_congr {r : Recorder} {voice voice' : Kind → Direction → Voice}
    (hs : Shape voice r st) (hstream : ∀ x, StreamOk x (st' (x, .dev)) (st' (x, .buf)))
    (hnone : ∀ k d, (voice' k d).transferring = 0)
    (hrecord : ∀ f, st' (.record, f) = st (.record, f)) :
    Shape voice' r st' := by
  refine ⟨hstream, fun k d => ?_, fun k d hpos => ?_, fun k d hpos => ?_, fun hopened => ?_⟩
  · rw [hnone]
    exact Nat.zero_le 1
  · rw [hnone] at hpos
    cases hpos
  · rw [hnone] at hpos
    cases hpos
  · rw [hrecord, hrecord]
    exact hs.opened hopened

lemma Shape.initVoice (hs : Shape s.voice s.recorder s.heap.status) (hok : Ok .initVoice s) :
    ∃ st', Sees (s.ops .initVoice) s.heap.status st' ∧
      Shape (fun k d => (s.voice k d).created) s.recorder st' := by
  have hlive : ∀ x ∈ voiceStreams, ∀ f, s.heap.status (x, f) ≠ .live := fun x hx f => by
    cases f with
    | dev => exact hok x hx
    | buf => exact fun h => hok x hx ((hs.stream x).dev h)
  -- a thread in `stream_transfer` would have its streams open
  have hnone : ∀ k d, (s.voice k d).transferring = 0 := fun k d => by
    by_contra hpos
    refine hok (receiver k d) ?_ (hs.transferring k d (Nat.pos_of_ne_zero hpos)).receiver_dev
    cases k <;> cases d <;> decide
  have hops : s.ops .initVoice = voiceStreams.flatMap clearStream := by
    rw [State.ops, allThreads_nil hnone, List.append_nil]
  refine ⟨_, hops ▸ sees_clearStreams nodup_voiceStreams hlive, ?_⟩
  exact hs.recorder_congr (fun x => (hs.stream x).cleared _) (fun _ _ => rfl)
    fun _ => if_neg record_notMem

lemma Shape.exitVoice (hs : Shape s.voice s.recorder s.heap.status) (hok : Ok .exitVoice s) :
    Sees (s.ops .exitVoice) s.heap.status (closed voiceStreams s.heap.status) ∧
      Shape (fun k d => (s.voice k d).exited) s.recorder (closed voiceStreams s.heap.status) := by
  obtain ⟨hclosed, hnone⟩ := hok
  have hops : s.ops .exitVoice = voiceStreams.flatMap closeStream := by
    rw [State.ops, allThreads_nil hnone, List.append_nil]
  refine ⟨hops ▸ sees_closeStreams nodup_voiceStreams hclosed, ?_⟩
  exact hs.recorder_congr (fun x => (hs.stream x).closed _) (fun _ _ => rfl)
    fun _ => if_neg record_notMem

/-- An `init_stream`, in the streams as a whole. -/
lemma sees_initStream (hst : ∀ y, StreamOk y (st (y, .dev)) (st (y, .buf)))
    (ho : InitOk st x o) : ∃ st', Sees (initStream x o) st st' ∧
      (∀ y, StreamOk y (st' (y, .dev)) (st' (y, .buf))) ∧
      (o.opened x = true → st' (x, .dev) = .live ∧ (x.sender = true → st' (x, .buf) = .live)) ∧
      (∀ y f, y ≠ x ∨ st (x, .dev) = .live → st' (y, f) = st (y, f)) ∧
      (o = .badPcm ∨ o = .notReady →
        st' (x, .dev) ≠ .dangling ∧ st' (x, .buf) = st (x, .buf)) := by
  obtain ⟨dev, buf, hdev, hbuf, hx, hopened, hlive, hfailed⟩ := initStream_spec (hst x) ho
  let st' : Slot → Status := fun slot =>
    if slot.1 = x then (match slot.2 with | .dev => dev | .buf => buf) else st slot
  have hself : st' (x, .dev) = dev ∧ st' (x, .buf) = buf := ⟨if_pos rfl, if_pos rfl⟩
  have hother : ∀ y f, y ≠ x → st' (y, f) = st (y, f) := fun y f hne => if_neg hne
  refine ⟨st', fun ⟨y, f⟩ => ?_, fun y => ?_, ?_, fun y f hy => ?_, ?_⟩
  · by_cases hne : y = x
    · rw [hne]
      cases f with
      | dev => exact hdev.trans (congrArg some hself.1.symm)
      | buf => exact hbuf.trans (congrArg some hself.2.symm)
    · rw [hother y f hne]
      exact slotRun_initStream_of_ne (Ne.symm hne)
  · by_cases hne : y = x
    · rw [hne, hself.1, hself.2]
      exact hx
    · rw [hother y _ hne, hother y _ hne]
      exact hst y
  · rw [hself.1, hself.2]
    exact hopened
  · by_cases hne : y = x
    · obtain ⟨hdev', hbuf'⟩ := hlive (hy.resolve_left (not_not_intro hne))
      rw [hne]
      cases f with
      | dev => exact hself.1.trans hdev'
      | buf => exact hself.2.trans hbuf'
    · exact hother y f hne
  · rw [hself.1, hself.2]
    exact hfailed

lemma receiver_ne_sender : receiver k d ≠ sender k d := by
  cases k <;> cases d <;> decide

lemma sender_sender : (sender k d).sender = true := by
  cases k <;> cases d <;> rfl

/-- A thread that has been woken. -/
lemma sees_session {o : Opening × Opening} (hst : ∀ y, StreamOk y (st (y, .dev)) (st (y, .buf)))
    (hr : InitOk st (receiver k d) o.1)
    (hs : o.1.opened (receiver k d) = true → InitOk st (sender k d) o.2) :
    ∃ st', Sees (session k d o) st st' ∧
      (∀ y, StreamOk y (st' (y, .dev)) (st' (y, .buf))) ∧
      (opens k d o = true → Opened k d st') ∧
      ∀ y f, y ∉ streams k d ∨ st (y, .dev) = .live → st' (y, f) = st (y, f) := by
  obtain ⟨st₁, hsees₁, hst₁, hopened₁, hold₁, -⟩ := sees_initStream hst hr
  have hsame₁ : ∀ y f, y ∉ streams k d ∨ st (y, .dev) = .live → st₁ (y, f) = st (y, f) := by
    intro y f hy
    by_cases hne : y = receiver k d
    · refine hold₁ y f (.inr ?_)
      rw [← hne]
      exact hy.resolve_left (not_not_intro (hne ▸ List.mem_cons_self))
    · exact hold₁ y f (.inl hne)
  unfold session opens
  cases hr' : o.1.opened (receiver k d) with
  | false =>
    refine ⟨st₁, ?_, hst₁, nofun, hsame₁⟩
    rw [if_neg Bool.false_ne_true, List.append_nil]
    exact hsees₁
  | true =>
    obtain ⟨hreceiver, -⟩ := hopened₁ hr'
    have hsender : st₁ (sender k d, .dev) = st (sender k d, .dev) :=
      hold₁ _ _ (.inl (Ne.symm receiver_ne_sender))
    have hinit : InitOk st (sender k d) o.2 → InitOk st₁ (sender k d) o.2 := fun h => by
      rwa [InitOk, hsender]
    obtain ⟨st₂, hsees₂, hst₂, hopened₂, hold₂, -⟩ := sees_initStream hst₁ (hinit (hs hr'))
    have hreceiver₂ : st₂ (receiver k d, .dev) = .live :=
      (hold₂ _ _ (.inl receiver_ne_sender)).trans hreceiver
    have hboth : o.2.opened (sender k d) = true → Opened k d st₂ := fun hs' =>
      ⟨hreceiver₂, (hopened₂ hs').1, (hopened₂ hs').2 sender_sender⟩
    rw [if_pos rfl]
    refine ⟨st₂, hsees₁.append ?_, hst₂, hboth, fun y f hy => ?_⟩
    · cases hs' : o.2.opened (sender k d) with
      | false =>
        rw [if_neg Bool.false_ne_true, List.append_nil]
        exact hsees₂
      | true =>
        rw [if_pos rfl]
        exact hsees₂.append (hboth hs').sees
    · refine (hold₂ y f ?_).trans (hsame₁ y f hy)
      by_cases hne : y = sender k d
      · refine .inr ((hsender.trans ?_))
        rw [← hne]
        exact hy.resolve_left (not_not_intro (hne ▸ List.mem_cons_of_mem _ List.mem_cons_self))
      · exact .inl hne

lemma streams_disjoint {k' : Kind} {d' : Direction} (hd : d ≠ d') (hx : x ∈ streams k d) :
    x ∉ streams k' d' := by
  have hall : ∀ y ∈ streams k d, y ∉ streams k' d' := by
    cases d <;> cases d' <;> first | exact absurd rfl hd | (cases k <;> cases k' <;> decide)
  exact hall x hx

lemma sees_woken {w : Direction → Opening × Opening} (d : Direction)
    (hst : ∀ y, StreamOk y (st (y, .dev)) (st (y, .buf)))
    (hok : 0 < (s.voice k d).sleeping → InitOk st (receiver k d) (w d).1 ∧
      ((w d).1.opened (receiver k d) = true → InitOk st (sender k d) (w d).2)) :
    ∃ st', Sees (s.woken k w d) st st' ∧
      (∀ y, StreamOk y (st' (y, .dev)) (st' (y, .buf))) ∧
      (0 < (s.voice k d).sleeping → opens k d (w d) = true → Opened k d st') ∧
      ∀ y f, y ∉ streams k d ∨ st (y, .dev) = .live → st' (y, f) = st (y, f) := by
  unfold State.woken
  split_ifs with hsleeping
  · obtain ⟨hr, hs⟩ := hok hsleeping
    obtain ⟨st', hsees, hst', hopened, hold⟩ := sees_session hst hr hs
    exact ⟨st', hsees, hst', fun _ => hopened, hold⟩
  · exact ⟨st, Sees.nil, hst, fun h => absurd h hsleeping, fun _ _ _ => rfl⟩

/-- A thread that opens its streams is the only one that has them. -/
lemma Shape.none_of_opens {w : Direction → Opening × Opening}
    (hs : Shape s.voice s.recorder s.heap.status) (hok : Ok (.startVoice k w) s)
    (hsleeping : 0 < (s.voice k d).sleeping) (hopens : opens k d (w d) = true) :
    ∀ k', (s.voice k' d).transferring = 0 := by
  obtain ⟨hreceiver, hsender⟩ := hok d hsleeping
  obtain ⟨hr, hs'⟩ := Bool.and_eq_true_iff.mp hopens
  -- an `init_stream` without a node does not open the stream
  have hne : ∀ {x : Stream} {o : Opening}, o.opened x = true → o ≠ .noNode := by
    rintro x o h rfl
    cases h
  have hr := hreceiver.resolve_left (hne hr)
  have hs' := (hsender ‹_›).resolve_left (hne hs')
  intro k'
  by_contra hpos
  obtain ⟨hreceiver', hsender', -⟩ := hs.transferring k' d (Nat.pos_of_ne_zero hpos)
  cases d with
  | up => exact hr (by cases k <;> cases k' <;> exact hreceiver')
  | down => exact hs' (by cases k <;> cases k' <;> exact hsender')

lemma Voice.started_transferring (v : Voice) (b : Bool) : (v.started b).transferring =
    if 0 < v.sleeping ∧ b = true then v.transferring + 1 else v.transferring := by
  unfold Voice.started
  by_cases hsleeping : 0 < v.sleeping
  · simp only [hsleeping, if_true, true_and]
  · simp only [hsleeping, if_false, false_and]

lemma Shape.startVoice {w : Direction → Opening × Opening}
    (hs : Shape s.voice s.recorder s.heap.status) (hok : Ok (.startVoice k w) s) :
    ∃ st', Sees (s.ops (.startVoice k w)) s.heap.status st' ∧
      Shape (s.setVoices k fun d => (s.voice k d).started (opens k d (w d))).voice s.recorder
        st' := by
  obtain ⟨st₁, hsees₁, hst₁, hopened₁, hold₁⟩ := sees_woken .down hs.stream (hok .down)
  have hup : ∀ x ∈ streams k .up, ∀ f, st₁ (x, f) = s.heap.status (x, f) := fun x hx f =>
    hold₁ x f (.inl (streams_disjoint (by decide) hx))
  have hok₂ := hok .up
  rw [InitOk, InitOk, ← hup _ List.mem_cons_self,
    ← hup _ (List.mem_cons_of_mem _ List.mem_cons_self)] at hok₂
  obtain ⟨st₂, hsees₂, hst₂, hopened₂, hold₂⟩ := sees_woken .up hst₁ hok₂
  have hlive : ∀ y f, s.heap.status (y, .dev) = .live → st₂ (y, f) = s.heap.status (y, f) := by
    intro y f hy
    have hdev := hold₁ y .dev (.inr hy)
    exact (hold₂ y f (.inr (hdev.trans hy))).trans (hold₁ y f (.inr hy))
  have hkeeps : ∀ {k' d}, Opened k' d s.heap.status → Opened k' d st₂ := fun hst =>
    hst.congr fun x _ hx f => hlive x f hx
  have hopened : ∀ d, 0 < (s.voice k d).sleeping → opens k d (w d) = true → Opened k d st₂ := by
    intro d hsleeping hopens
    cases d with
    | up => exact hopened₂ hsleeping hopens
    | down =>
      -- what the first thread has opened, the second one leaves open
      exact (hopened₁ hsleeping hopens).congr fun x _ hx f => hold₂ x f (.inr hx)
  refine ⟨st₂, hsees₁.append hsees₂, hst₂, fun k' d => ?_, fun k' d hpos => ?_, fun k' d hpos => ?_,
    fun hrecorder => ?_⟩
  · simp only [State.setVoices]
    split_ifs
    · rw [Voice.started_transferring]
      split_ifs with hnew
      · exact Nat.le_of_eq (congrArg (· + 1) (hs.none_of_opens hok hnew.1 hnew.2 k))
      · exact hs.single k d
    · exact hs.single k' d
  · simp only [State.setVoices] at hpos ⊢
    split_ifs at hpos with hk'
    · rw [Voice.started_transferring] at hpos
      rw [if_neg (by rw [hk']; cases k <;> decide)]
      split_ifs at hpos with hnew
      · exact hs.none_of_opens hok hnew.1 hnew.2 _
      · rw [hk']
        exact hs.apart k d hpos
    · split_ifs with hother
      · have hzero : (s.voice k d).transferring = 0 := hother ▸ hs.apart k' d hpos
        rw [Voice.started_transferring]
        split_ifs with hnew
        · rw [hs.none_of_opens hok hnew.1 hnew.2 k'] at hpos
          cases hpos
        · exact hzero
      · exact hs.apart k' d hpos
  · simp only [State.setVoices] at hpos
    split_ifs at hpos with hk'
    · rw [hk']
      rw [Voice.started_transferring] at hpos
      split_ifs at hpos with hnew
      · exact hopened d hnew.1 hnew.2
      · exact hkeeps (hs.transferring k d hpos)
    · exact hkeeps (hs.transferring k' d hpos)
  · obtain ⟨hsession, hdev, hbuf⟩ := hs.opened hrecorder
    exact ⟨hsession, (hlive _ _ hdev).trans hdev, (hlive _ _ hdev).trans hbuf⟩

/-- The streams that a thread closes when its run flag is cleared. -/
def finished (s : State) (k : Kind) (d : Direction) : List Stream :=
  if 0 < (s.voice k d).transferring then streams k d else []

lemma mem_finished : x ∈ finished s k d ↔ 0 < (s.voice k d).transferring ∧ x ∈ streams k d := by
  unfold finished
  split_ifs with hpos
  · exact (and_iff_right hpos).symm
  · exact iff_of_false List.not_mem_nil fun h => hpos h.1

lemma closed_of_notMem {xs : List Stream} (hx : x ∉ xs) : closed xs st (x, f) = st (x, f) :=
  if_neg hx

lemma Opened.closed (hst : Opened k d st) {xs : List Stream} (hxs : ∀ x ∈ streams k d, x ∉ xs) :
    Opened k d (closed xs st) :=
  hst.congr fun x hx _ _ => closed_of_notMem (hxs x hx)

lemma sees_finish (hst : ∀ y, StreamOk y (st (y, .dev)) (st (y, .buf)))
    (hsingle : (s.voice k d).transferring ≤ 1)
    (hopened : 0 < (s.voice k d).transferring → Opened k d st) :
    Sees (s.threads (finish k d) k d) st (closed (finished s k d) st) := by
  rcases Nat.le_one_iff_eq_zero_or_eq_one.mp hsingle with hzero | hone
  · have hnil : finished s k d = [] := if_neg (by rw [hzero]; exact Nat.lt_irrefl 0)
    rw [threads_nil hzero, hnil]
    exact fun _ => rfl
  · have hpos : 0 < (s.voice k d).transferring := Nat.lt_of_lt_of_eq Nat.zero_lt_one hone.symm
    have hstreams : finished s k d = streams k d := if_pos hpos
    obtain ⟨hreceiver, hsender, hbuf⟩ := hopened hpos
    have hnull : st (receiver k d, .buf) = .null :=
      (hst _).receiver (by cases k <;> cases d <;> rfl)
    rw [threads_one hone, hstreams, finish]
    refine (hopened hpos).sees.append (sees_closeStreams ?_ fun x hx => ?_)
    · cases k <;> cases d <;> decide
    · simp only [streams, List.mem_cons, List.not_mem_nil, or_false] at hx
      rcases hx with rfl | rfl
      · rintro (- | -)
        · exact hreceiver ▸ nofun
        · exact hnull ▸ nofun
      · exact ne_dangling_of_live hsender hbuf

lemma Shape.stopVoice (hs : Shape s.voice s.recorder s.heap.status) (hok : Ok (.stopVoice k) s) :
    ∃ st', Sees (s.ops (.stopVoice k)) s.heap.status st' ∧
      Shape (s.setVoices k fun d => (s.voice k d).stopped).voice s.recorder st' := by
  have hdown := sees_finish hs.stream (hs.single k .down) (hs.transferring k .down)
  have hup := sees_finish (fun y => (hs.stream y).closed (finished s k .down)) (hs.single k .up)
    fun hpos => (hs.transferring k .up hpos).closed fun x hx hmem =>
      streams_disjoint (by decide) hx (mem_finished.mp hmem).2
  have hstop : Sees (pcmStop k) s.heap.status s.heap.status :=
    Sees.use (forall_pcmStop fun d => ⟨⟨rfl, (hok d).1⟩, rfl, (hok d).2⟩)
  -- what the other kind uses has not been closed
  have hother : ∀ k' d d', k' ≠ k → 0 < (s.voice k' d).transferring → ∀ x ∈ streams k' d,
      x ∉ finished s k d' := fun k' d d' hne hpos x hx hmem => by
    obtain ⟨hpos', hx'⟩ := mem_finished.mp hmem
    by_cases hd : d = d'
    · have hzero := hs.apart k' d hpos
      have hk : k'.other = k := by
        cases k <;> cases k' <;> first | rfl | exact absurd rfl hne
      rw [hk, hd] at hzero
      exact absurd hzero (Nat.ne_of_gt hpos')
    · exact streams_disjoint hd hx hx'
  have hrecord : ∀ d', Stream.record ∉ finished s k d' := fun d' hmem => by
    have hnot : Stream.record ∉ streams k d' := by
      cases k <;> cases d' <;> decide
    exact hnot (mem_finished.mp hmem).2
  refine ⟨_, hstop.append (hdown.append hup), fun y => ((hs.stream y).closed _).closed _,
    fun k' d => ?_, fun k' d hpos => ?_, fun k' d hpos => ?_, fun hopened => ?_⟩
  · simp only [State.setVoices]
    split_ifs
    · exact Nat.zero_le 1
    · exact hs.single k' d
  · simp only [State.setVoices] at hpos ⊢
    split_ifs at hpos with hk'
    · cases hpos
    · split_ifs
      · rfl
      · exact hs.apart k' d hpos
  · simp only [State.setVoices] at hpos
    split_ifs at hpos with hk'
    · cases hpos
    · exact ((hs.transferring k' d hpos).closed (hother k' d .down hk' hpos)).closed
        (hother k' d .up hk' hpos)
  · obtain ⟨hsession, hdev, hbuf⟩ := hs.opened hopened
    refine ⟨hsession, ?_, ?_⟩
    · rw [closed_of_notMem (hrecord _), closed_of_notMem (hrecord _)]
      exact hdev
    · rw [closed_of_notMem (hrecord _), closed_of_notMem (hrecord _)]
      exact hbuf

variable {r r' : Recorder} {voice : Kind → Direction → Voice}

lemma sees_closeStream (hst : ∀ f, st (x, f) ≠ .dangling) :
    Sees (closeStream x) st (closed [x] st) := by
  have hsees := sees_closeStreams (List.pairwise_singleton _ x) fun y hy f => by
    rw [List.mem_singleton.mp hy]
    exact hst f
  rwa [List.flatMap_singleton] at hsees

/-- The recorder changes its own stream only. -/
lemma Shape.of_record (hs : Shape voice r st)
    (hstream : ∀ y, StreamOk y (st' (y, .dev)) (st' (y, .buf)))
    (hsame : ∀ y f, y ≠ .record → st' (y, f) = st (y, f))
    (hopened : r'.opened = true →
      r'.session = true ∧ st' (.record, .dev) = .live ∧ st' (.record, .buf) = .live) :
    Shape voice r' st' := by
  have hne : ∀ k d, ∀ x ∈ streams k d, x ≠ .record := fun k d => by
    cases k <;> cases d <;> decide
  exact ⟨hstream, hs.single, hs.apart, fun k d hpos => (hs.transferring k d hpos).congr
    fun x hx _ f => hsame x f (hne k d x hx), hopened⟩

/-- What a pass of `record_data` reads from. -/
lemma sees_read (hdev : st (.record, .dev) ≠ .dangling) (hbuf : st (.record, .buf) ≠ .dangling) :
    Sees [⟨.use, .record, .dev⟩, ⟨.use, .record, .buf⟩] st st := Sees.use fun op hop => by
  simp only [List.mem_cons, List.not_mem_nil, or_false] at hop
  rcases hop with rfl | rfl
  · exact ⟨rfl, hdev⟩
  · exact ⟨rfl, hbuf⟩

/-- A pass that opens the stream, or fails to. -/
lemma sees_opening (hst : ∀ y, StreamOk y (st (y, .dev)) (st (y, .buf))) (hok : PassOk st o) :
    ∃ st', Sees (initStream .record o ++ [⟨.use, .record, .dev⟩, ⟨.use, .record, .buf⟩]) st st' ∧
      (∀ y, StreamOk y (st' (y, .dev)) (st' (y, .buf))) ∧
      (∀ y f, y ≠ .record → st' (y, f) = st (y, f)) ∧ (∀ f, st' (.record, f) ≠ .dangling) ∧
      (o.opened .record = true → st' (.record, .dev) = .live ∧ st' (.record, .buf) = .live) := by
  have hinit : InitOk st .record o := by
    cases o with
    | noNode => exact .inl rfl
    | badPcm | notReady => exact .inr hok.1
    | noBuf => exact hok.elim
    | ok => exact .inr hok
  obtain ⟨st', hsees, hst', hopened, hsame, hfailed⟩ := sees_initStream hst hinit
  have hdangling : ∀ f, st' (.record, f) ≠ .dangling := by
    cases o with
    | noNode =>
      have hnil : Sees (initStream .record .noNode) st st := Sees.nil
      rw [hnil.eq hsees]
      rintro (- | -)
      · exact hok.1
      · exact hok.2
    | badPcm | notReady =>
      obtain ⟨hdev, hbuf⟩ := hfailed (by decide)
      rintro (- | -)
      · exact hdev
      · exact hbuf ▸ hok.2
    | noBuf => exact hok.elim
    | ok => exact ne_dangling_of_live (hopened rfl).1 ((hopened rfl).2 rfl)
  exact ⟨st', hsees.append (sees_read (hdangling _) (hdangling _)), hst',
    fun y f hy => hsame y f (.inl hy), hdangling,
    fun h => ⟨(hopened h).1, (hopened h).2 rfl⟩⟩

lemma closed_record (hne : y ≠ .record) : closed [.record] st (y, f) = st (y, f) :=
  closed_of_notMem fun hy => hne (List.mem_singleton.mp hy)

lemma sees_body (hs : Shape voice r st)
    (hok : r.fromAdc = true → r.opened = false → PassOk st o) : ∃ st', Sees (r.body o) st st' ∧
      (∀ y, StreamOk y (st' (y, .dev)) (st' (y, .buf))) ∧
      (∀ y f, y ≠ .record → st' (y, f) = st (y, f)) ∧
      (r.fromAdc = true → ∀ f, st' (.record, f) ≠ .dangling) ∧
      (r.fromAdc = true → r.opened = true ∨ o.opened .record = true →
        st' (.record, .dev) = .live ∧ st' (.record, .buf) = .live) := by
  unfold Recorder.body
  cases hadc : r.fromAdc with
  | false =>
    rw [if_neg Bool.false_ne_true]
    cases hopened : r.opened with
    | false =>
      rw [if_neg Bool.false_ne_true]
      exact ⟨st, Sees.nil, hs.stream, fun _ _ _ => rfl, nofun, nofun⟩
    | true =>
      obtain ⟨-, hdev, hbuf⟩ := hs.opened hopened
      rw [if_pos rfl]
      exact ⟨_, sees_closeStream (ne_dangling_of_live hdev hbuf), fun y => (hs.stream y).closed _,
        fun y f => closed_record, nofun, nofun⟩
  | true =>
    rw [if_pos rfl]
    cases hopened : r.opened with
    | false =>
      rw [if_neg Bool.false_ne_true]
      obtain ⟨st', hsees, hst', hsame, hdangling, hlive⟩ :=
        sees_opening hs.stream (hok hadc hopened)
      exact ⟨st', hsees, hst', hsame, fun _ => hdangling,
        fun _ h => hlive (h.resolve_left Bool.false_ne_true)⟩
    | true =>
      obtain ⟨-, hdev, hbuf⟩ := hs.opened hopened
      rw [if_pos rfl, List.nil_append]
      have hdangling := ne_dangling_of_live hdev hbuf
      exact ⟨st, sees_read (hdangling _) (hdangling _), hs.stream, fun _ _ _ => rfl,
        fun _ => hdangling, fun _ _ => ⟨hdev, hbuf⟩⟩

lemma Shape.pass (hs : Shape voice r st) (ok : Bool)
    (hok : r.fromAdc = true → r.opened = false → PassOk st o) :
    ∃ st', Sees (r.pass o ok).1 st st' ∧ Shape voice (r.pass o ok).2 st' := by
  obtain ⟨st', hsees, hst', hsame, hdangling, hlive⟩ := sees_body hs hok
  unfold Recorder.pass
  cases hfailed : r.failed o ok with
  | true =>
    have hadc : r.fromAdc = true := (Bool.and_eq_true_iff.mp hfailed).1
    rw [if_pos rfl]
    refine ⟨_, hsees.append (sees_closeStream (hdangling hadc)), ?_⟩
    exact hs.of_record (fun y => (hst' y).closed _)
      (fun y f hne => (closed_record hne).trans (hsame y f hne)) nofun
  | false =>
    rw [if_neg Bool.false_ne_true]
    refine ⟨st', hsees, hs.of_record hst' hsame fun hadc => ⟨rfl, hlive hadc ?_⟩⟩
    -- the pass has not failed: the stream was opened, or is now
    have hopened := (Bool.and_eq_false_iff.mp hfailed).resolve_left fun h =>
      Bool.false_ne_true (h.symm.trans hadc)
    have hinit := (Bool.or_eq_false_iff.mp hopened).1
    cases h : r.opened with
    | true => exact .inl rfl
    | false =>
      rw [h] at hinit
      exact .inr (Bool.not_eq_false' _ ▸ hinit)

/-- The `pcm_stop` of `stop_record`. -/
lemma sees_pcmStop (hdev : st (.record, .dev) ≠ .dangling) :
    Sees [⟨.use, .record, .dev⟩] st st := Sees.use fun op hop => by
  rw [List.mem_singleton.mp hop]
  exact ⟨rfl, hdev⟩

lemma Shape.stop (hs : Shape s.voice s.recorder s.heap.status) (hok : Ok (.stopRecord o) s) :
    ∃ st', Sees (s.ops (.stopRecord o)) s.heap.status st' ∧
      Shape s.voice ⟨false, false, false, true, 0, false⟩ st' := by
  unfold State.ops Recorder.stop
  cases hadc : s.recorder.fromAdc with
  | false =>
    have hbody := sees_body (o := o) hs fun h => absurd (hadc.symm.trans h) Bool.false_ne_true
    obtain ⟨st', hsees, hst', hsame, -⟩ := hbody
    simp only [if_neg Bool.false_ne_true, List.nil_append, List.append_nil]
    split_ifs
    · exact ⟨st', hsees, hs.of_record hst' hsame nofun⟩
    · exact ⟨_, Sees.nil, hs.of_record hs.stream (fun _ _ _ => rfl) nofun⟩
  | true =>
    obtain ⟨hdev, hrest⟩ := hok hadc
    have hstop := sees_pcmStop hdev
    simp only [if_pos]
    -- the thread closes the stream, or has none
    have hsession : ∃ st', Sees
        (if s.recorder.session then s.recorder.body o ++ closeStream .record else [])
        s.heap.status st' ∧ (∀ y, StreamOk y (st' (y, .dev)) (st' (y, .buf))) ∧
        (∀ y f, y ≠ .record → st' (y, f) = s.heap.status (y, f)) ∧
        ∀ f, st' (.record, f) ≠ .live := by
      split_ifs at hrest ⊢
      · obtain ⟨st', hsees, hst', hsame, hdangling, -⟩ := sees_body hs fun _ => hrest
        refine ⟨_, hsees.append (sees_closeStream (hdangling hadc)), fun y => (hst' y).closed _,
          fun y f hne => (closed_record hne).trans (hsame y f hne), fun f => ?_⟩
        rw [closed, if_pos List.mem_cons_self]
        exact Status.released_ne_live
      · refine ⟨_, Sees.nil, hs.stream, fun _ _ _ => rfl, ?_⟩
        rintro (- | -)
        · exact hrest
        · exact fun h => hrest ((hs.stream _).dev h)
    obtain ⟨st', hsees, hst', hsame, hlive⟩ := hsession
    have hclear := sees_clearStreams (List.pairwise_singleton _ Stream.record) fun y hy f => by
      rw [List.mem_singleton.mp hy]
      exact hlive f
    rw [List.flatMap_singleton] at hclear
    refine ⟨_, hstop.append (hsees.append hclear),
      hs.of_record (fun y => (hst' y).cleared _) ?_ nofun⟩
    exact fun y f hne => (if_neg fun hy => hne (List.mem_singleton.mp hy)).trans (hsame y f hne)

variable {a : Act}

/-- A call whose operations go through. -/
lemma Inv.of_sees (hs : Inv s) {s₁ : State} (hsees : Sees (s.ops a) s.heap.status st')
    (hshape : Shape s₁.voice s₁.recorder st') :
    Inv { s₁ with heap := s.heap.run (s.ops a) } := by
  refine ⟨hs.wellFormed.run _, (Heap.kept_run_iff hs.wellFormed hs.kept _).mpr ⟨_, hsees⟩, ?_⟩
  rw [Heap.status_run hs.wellFormed hs.kept hsees]
  exact hshape

/-- Behind an exit only the recorder's stream can be open. -/
lemma released_of_exit (hs : Inv s) (hok : Ok .exitVoice s) {s₁ : State} :
    Released .exitVoice s { s₁ with heap := s.heap.run (s.ops .exitVoice) } := by
  intro _ h hlt hnot
  have hsees := (hs.shape.exitVoice hok).1
  have hkept := (Heap.kept_run_iff hs.wellFormed hs.kept _).mpr ⟨_, hsees⟩
  refine (hkept.released h hlt).resolve_right ?_
  rintro ⟨hzero, ⟨x, f⟩, hptr⟩
  have hlive : (s.heap.run (s.ops .exitVoice)).status (x, f) = .live :=
    Heap.status_eq_live.mpr ⟨h, hptr, hzero⟩
  by_cases hx : x = .record
  · exact hnot f (hx ▸ hptr)
  · rw [Heap.status_run hs.wellFormed hs.kept hsees, closed, if_pos (mem_voiceStreams hx)] at hlive
    exact Status.released_ne_live hlive

/-- A pass of the recorder thread, in a session or at the beginning of one. -/
lemma Shape.record (hs : Shape s.voice s.recorder s.heap.status) {ok : Bool}
    (hok : Ok (.record o ok) s) {s₁ : State} (hctrl : s.ctrl (.record o ok) = some s₁) :
    ∃ st', Sees (s.ops (.record o ok)) s.heap.status st' ∧ Shape s₁.voice s₁.recorder st' := by
  simp only [State.ctrl] at hctrl
  simp only [State.ops]
  split_ifs at hctrl with hsession hsem hrun
  · obtain rfl := Option.some.inj hctrl
    rw [if_pos (.inl hsession)]
    exact hs.pass ok (hok (.inl hsession))
  · obtain rfl := Option.some.inj hctrl
    rw [if_pos (.inr ⟨hsem, hrun⟩)]
    -- the flags that the pass looks at are those of the state
    have hs' : Shape s.voice { s.recorder with sem := s.recorder.sem - 1, exit := false }
        s.heap.status := ⟨hs.stream, hs.single, hs.apart, hs.transferring, hs.opened⟩
    obtain ⟨st', hsees, hshape⟩ := hs'.pass ok (hok (.inr ⟨hsem, hrun⟩))
    refine ⟨st', ?_, hshape⟩
    unfold Recorder.pass at hsees ⊢
    split_ifs at hsees ⊢ <;> first | exact hsees | contradiction
  · obtain rfl := Option.some.inj hctrl
    rw [if_neg fun h => h.elim hsession fun h => hrun h.2]
    exact ⟨_, Sees.nil, hs.of_record hs.stream (fun _ _ _ => rfl) hs.opened⟩

/-- A call under the condition keeps the invariant. -/
lemma Inv.step (hs : Inv s) (hok : Ok a s) (hstep : s.step a = some s') :
    Inv s' ∧ Released a s s' := by
  obtain ⟨s₁, hctrl, rfl⟩ := Option.map_eq_some_iff.mp hstep
  cases a with
  | initVoice =>
    obtain rfl := Option.some.inj hctrl
    obtain ⟨st', hsees, hshape⟩ := hs.shape.initVoice hok
    exact ⟨hs.of_sees hsees hshape, nofun⟩
  | startVoice k w =>
    simp only [State.ctrl] at hctrl
    split_ifs at hctrl
    obtain rfl := Option.some.inj hctrl
    obtain ⟨st', hsees, hshape⟩ := hs.shape.startVoice hok
    exact ⟨hs.of_sees hsees hshape, nofun⟩
  | stopVoice k =>
    simp only [State.ctrl] at hctrl
    split_ifs at hctrl
    obtain rfl := Option.some.inj hctrl
    obtain ⟨st', hsees, hshape⟩ := hs.shape.stopVoice hok
    exact ⟨hs.of_sees hsees hshape, nofun⟩
  | exitVoice =>
    obtain rfl := Option.some.inj hctrl
    obtain ⟨hsees, hshape⟩ := hs.shape.exitVoice hok
    exact ⟨hs.of_sees hsees hshape, released_of_exit hs hok⟩
  | setRecordSource fromAdc =>
    obtain rfl := Option.some.inj hctrl
    have hshape := hs.shape
    exact ⟨hs.of_sees Sees.nil (hshape.of_record hshape.stream (fun _ _ _ => rfl) hshape.opened),
      nofun⟩
  | startRecord =>
    obtain rfl := Option.some.inj hctrl
    exact ⟨hs.of_sees Sees.nil (hs.shape.of_record hs.shape.stream (fun _ _ _ => rfl) nofun), nofun⟩
  | record o ok =>
    obtain ⟨st', hsees, hshape⟩ := hs.shape.record hok hctrl
    exact ⟨hs.of_sees hsees hshape, nofun⟩
  | stopRecord o =>
    simp only [State.ctrl] at hctrl
    split_ifs at hctrl
    obtain rfl := Option.some.inj hctrl
    obtain ⟨st', hsees, hshape⟩ := hs.shape.stop hok
    exact ⟨hs.of_sees hsees hshape, nofun⟩

/-- What nobody points to has not been released. -/
lemma not_kept_of_lost {h : ℕ} (hlt : h < s.heap.ledger.next) (hzero : s.heap.ledger.released h = 0)
    (hlost : ∀ x ∈ Stream.record :: voiceStreams, s.heap.ptr (x, .dev) ≠ some h ∧
      s.heap.ptr (x, .buf) ≠ some h) : ¬ s.heap.Kept := by
  refine Heap.not_kept_of_lost hlt hzero fun ⟨x, f⟩ => ?_
  obtain ⟨hdev, hbuf⟩ := hlost x (by cases x <;> decide)
  cases f with
  | dev => exact hdev
  | buf => exact hbuf

end Softwinner.Audio.StreamLifecycle

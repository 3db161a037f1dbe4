import Mathlib.Algebra.Group.Nat.Defs
import Softwinner.Audio.InputStream

/-!
# The order of captured frames

`in_read` takes its frames from the pcm, or, while the stream has effects, by `read_frames` from
`in->buffer`, which holds what is left of the last period read from the pcm; `frames_in` counts it.
What is left there is forgotten by reads without effects, and survives a standby: only a start with
a resampler resets `frames_in`.

A frame is known by the opening of the pcm that captured it and its number there.  The stream is
that of `InputStream`, at the rate of its card, so that there is no resampler; the microphone is not
muted.  `ordered_iff` says when the frames that are returned are those of the pcm in their order.
-/

namespace Softwinner.Audio.CaptureOrder

open InputStream (ReadInput Handle)

/-! ## The reads -/

structure Frame where
  session : ℕ
  index : ℕ
  deriving DecidableEq

/-- `n` frames of an opening of the pcm. -/
def captured (session start n : ℕ) : List Frame := (List.range' start n).map (Frame.mk session)

/-- `period_size` of `pcm_config_mm_in`. -/
def periodSize : ℕ := 1024

/-- The device, and what the frames of a stream go through. -/
structure State where
  dev : InputStream.State
  buffer : List Frame
  framesIn : ℕ
  /-- How often the pcm has been opened. -/
  session : ℕ
  /-- How many frames have been read from the pcm since then. -/
  position : ℕ
  /-- For the specification: the frames returned since then. -/
  returned : List Frame

namespace State

variable (s : State)

def pcmRead (n : ℕ) : State × List Frame :=
  ({ s with position := s.position + n }, captured s.session s.position n)

/-- The first half of `get_next_buffer`: an empty buffer is filled with a period. -/
def fill : State :=
  if s.framesIn = 0 then
    let (s, buffer) := s.pcmRead periodSize
    { s with buffer := buffer, framesIn := periodSize }
  else s

def getNextBuffer (frameCount : ℕ) : State × List Frame :=
  let s := s.fill
  let frameCount := if s.framesIn < frameCount then s.framesIn else frameCount
  (s, (s.buffer.drop (periodSize - s.framesIn)).take frameCount)

def releaseBuffer (frameCount : ℕ) : State := { s with framesIn := s.framesIn - frameCount }

/-- `read_frames`; every round gets a frame, so that there are no more rounds than frames. -/
def readFrames : ℕ → ℕ → State → State × List Frame
  | 0, _, s => (s, [])
  | rounds + 1, frames, s =>
    if frames = 0 then (s, [])
    else
      let (s, got) := s.getNextBuffer frames
      let (s, rest) := readFrames rounds (frames - got.length) (s.releaseBuffer got.length)
      (s, got ++ rest)

/-- What is left in `in->buffer`. -/
def left : List Frame := s.buffer.drop (periodSize - s.framesIn)

/-- The pcm can be opened at the rate of the stream. -/
def opens (id : ℕ) : ReadInput := ⟨fun _ _ => some (s.dev.ins id).requestedRate, true⟩

/-- A stream in standby is started anew. -/
def restart : State := { s with session := s.session + 1, position := 0, returned := [] }

/-- The read of a stream that is not in standby. -/
def read (id frames : ℕ) : State :=
  let (s, got) :=
    if (s.dev.ins id).preprocessors.isEmpty then s.pcmRead frames else readFrames frames frames s
  { s with returned := s.returned ++ got }

/-- `in_read` of whole frames. -/
def inRead (id frames : ℕ) : State :=
  match s.dev.inRead id (s.opens id) with
  | (dev, none) => { s with dev := dev }
  | (dev, some _) =>
    State.read { (if (s.dev.ins id).standby then s.restart else s) with dev := dev } id frames

end State

inductive Call
  | inRead (frames : ℕ)
  | inStandby
  | inAddAudioEffect (effect : ℕ) (descriptor : Option Bool)
  | inRemoveAudioEffect (effect : ℕ) (descriptor : Option Bool)

/-- The calls on the stream `id`. -/
def State.step (id : ℕ) (s : State) : Call → Option State
  | .inRead frames => some (s.inRead id frames)
  | .inStandby => some { s with dev := s.dev.doInputStandby id }
  | .inAddAudioEffect effect descriptor =>
    some { s with dev := s.dev.inAddAudioEffect id effect descriptor }
  | .inRemoveAudioEffect effect descriptor =>
    some { s with dev := s.dev.inRemoveAudioEffect id effect descriptor }

/-- A stream that has been opened, on a device that is not in a call and has no AF capture. -/
structure State.Opened (id : ℕ) (s : State) : Prop where
  mode : s.dev.mode ≠ .inCall
  af : s.dev.afMode = false
  standby : (s.dev.ins id).standby = true
  buffer : s.buffer.length = periodSize
  framesIn : s.framesIn = 0
  returned : s.returned = []

/-! ## The property, and the condition -/

/-- What has been returned since the pcm was opened is what it has captured, from the start and in
its order. -/
def Ordered (s : State) : Prop := s.returned = captured s.session 0 s.returned.length

/-- What is left in the buffer has been read since the stream was started. -/
def State.Current (id : ℕ) (s : State) : Prop :=
  (s.dev.ins id).standby = false ∧ ∀ f ∈ s.left, f.session = s.session

/-- A read with effects finds in the buffer only what has been read since the stream was started, a
read without effects finds nothing of it. -/
def ReadOk (id : ℕ) (c : Call) (s : State) : Prop :=
  match c with
  | .inRead frames => 0 < frames → 0 < s.framesIn →
      (s.Current id ↔ (s.dev.ins id).preprocessors ≠ [])
  | _ => True

/-- `in->buffer` has room for a period. -/
def State.Fits (s : State) : Prop := s.buffer.length = periodSize ∧ s.framesIn ≤ periodSize

/-- Up to what is left of an earlier opening, the reads are in step with the pcm. -/
structure Inv (id : ℕ) (s : State) : Prop where
  mode : s.dev.mode ≠ .inCall
  af : s.dev.afMode = false
  fits : s.Fits
  ordered : Ordered s
  left : ∃ k ≤ s.session, ∀ f ∈ s.left, f.session = k
  current : s.Current id → s.left = captured s.session s.returned.length s.framesIn ∧
    s.position = s.returned.length + s.framesIn
  stale : (s.dev.ins id).standby = false → ¬ s.Current id → s.position = s.returned.length

variable {s s' : State} {id n : ℕ} {dev : InputStream.State}

/-! ## Runs of frames -/

@[simp] lemma length_captured (session start n : ℕ) : (captured session start n).length = n := by
  simp [captured]

@[simp] lemma captured_zero (session start : ℕ) : captured session start 0 = [] := rfl

lemma captured_append (session start n k : ℕ) :
    captured session start n ++ captured session (start + n) k =
      captured session start (n + k) := by
  simp [captured, ← List.map_append, List.range'_append_1]

lemma mem_captured {f : Frame} {session start n : ℕ} (h : f ∈ captured session start n) :
    f.session = session := by
  obtain ⟨i, -, rfl⟩ := List.mem_map.mp h
  rfl

/-- The two parts of a run are runs. -/
lemma captured_split {session start m : ℕ} {l l' : List Frame}
    (h : l ++ l' = captured session start m) :
    l = captured session start l.length ∧
      l' = captured session (start + l.length) l'.length := by
  have hlen : l.length + l'.length = m := by simpa using congrArg List.length h
  rw [← hlen, ← captured_append] at h
  exact List.append_inj h (by simp)

lemma captured_inj {session start start' : ℕ} (hn : 0 < n)
    (h : captured session start n = captured session start' n) : start = start' := by
  obtain ⟨k, rfl⟩ := Nat.exists_eq_succ_of_ne_zero (Nat.ne_of_gt hn)
  simp only [captured, List.range'_succ, List.map_cons, List.cons.injEq, Frame.mk.injEq] at h
  exact h.1.2

lemma ordered_append_iff (hs : Ordered s) {got : List Frame} (hr : s'.returned = s.returned ++ got)
    (hsession : s'.session = s.session) :
    Ordered s' ↔ got = captured s.session s.returned.length got.length := by
  unfold Ordered
  rw [hr, hsession, List.length_append, ← captured_append, Nat.zero_add]
  constructor
  · exact fun h => List.append_inj_right h (by simp)
  · exact fun h => congrArg₂ _ hs h

/-! ## Buffered reads -/

lemma length_left (hs : s.Fits) : s.left.length = s.framesIn := by
  obtain ⟨hbuffer, hle⟩ := hs
  rw [State.left, List.length_drop, hbuffer]
  omega

/-- The frames `got` have been taken from what was left, and from the pcm. -/
structure Took (s s' : State) (got : List Frame) : Prop where
  fits : s'.Fits
  frames : ∃ k, got ++ s'.left = s.left ++ captured s.session s.position k ∧
    s'.position = s.position + k
  dev : s'.dev = s.dev
  session : s'.session = s.session
  returned : s'.returned = s.returned

lemma Took.nil (hs : s.Fits) : Took s s [] :=
  ⟨hs, ⟨0, by simp, rfl⟩, rfl, rfl, rfl⟩

lemma Took.append {s'' : State} {got rest : List Frame} (h : Took s s' got)
    (h' : Took s' s'' rest) : Took s s'' (got ++ rest) := by
  obtain ⟨k, hframes, hposition⟩ := h.frames
  obtain ⟨k', hframes', hposition'⟩ := h'.frames
  refine ⟨h'.fits, ⟨k + k', ?_, by omega⟩, h'.dev.trans h.dev, h'.session.trans h.session,
    h'.returned.trans h.returned⟩
  rw [List.append_assoc, hframes', ← List.append_assoc, hframes, h.session, hposition,
    List.append_assoc, captured_append]

lemma took_fill (hs : s.Fits) : Took s s.fill [] := by
  unfold State.fill
  split_ifs with hzero
  · have hnil : s.left = [] := List.eq_nil_of_length_eq_zero (by rw [length_left hs, hzero])
    refine ⟨⟨by simp [State.pcmRead], Nat.le_refl _⟩, ⟨periodSize, ?_, rfl⟩, rfl, rfl, rfl⟩
    rw [hnil]
    simp [State.left, State.pcmRead]
  · exact .nil hs

lemma framesIn_fill : 0 < s.fill.framesIn := by
  unfold State.fill
  split_ifs with hzero
  · exact show 0 < 1024 by decide
  · exact Nat.pos_of_ne_zero hzero

lemma took_releaseBuffer (hs : s.Fits) (hn : n ≤ s.framesIn) :
    Took s (s.releaseBuffer n) (s.left.take n) := by
  have hleft : (s.releaseBuffer n).left = s.left.drop n := by
    obtain ⟨-, hle⟩ := hs
    simp only [State.left, State.releaseBuffer, List.drop_drop]
    congr 1
    omega
  refine ⟨⟨hs.1, Nat.le_trans (Nat.sub_le _ _) hs.2⟩, ⟨0, ?_, rfl⟩, rfl, rfl, rfl⟩
  rw [hleft, List.take_append_drop, captured_zero, List.append_nil]

/-- A round of `read_frames`. -/
lemma took_getNextBuffer (hs : s.Fits) (n : ℕ) :
    Took s ((s.getNextBuffer n).1.releaseBuffer (s.getNextBuffer n).2.length)
        (s.getNextBuffer n).2 ∧
      (s.getNextBuffer n).2.length ≤ n ∧ (0 < n → 0 < (s.getNextBuffer n).2.length) := by
  have hfill := took_fill hs
  have hpos : 0 < s.fill.framesIn := framesIn_fill
  obtain ⟨m, hm, hle, hpos', heq⟩ : ∃ m ≤ s.fill.framesIn, m ≤ n ∧ (0 < n → 0 < m) ∧
      s.getNextBuffer n = (s.fill, s.fill.left.take m) := by
    unfold State.getNextBuffer
    simp only
    split_ifs with hlt
    · exact ⟨_, Nat.le_refl _, Nat.le_of_lt hlt, fun _ => hpos, rfl⟩
    · exact ⟨n, Nat.not_lt.mp hlt, Nat.le_refl _, fun h => h, rfl⟩
  have hlen : (s.fill.left.take m).length = m := by
    rw [List.length_take, length_left hfill.fits]
    exact Nat.min_eq_left hm
  rw [heq]
  simp only [hlen]
  exact ⟨hfill.append (took_releaseBuffer hfill.fits hm), hle, hpos'⟩

/-- `read_frames` gets all frames that it was asked for. -/
lemma took_readFrames (rounds : ℕ) : ∀ {n : ℕ} {s : State}, s.Fits → n ≤ rounds →
    Took s (State.readFrames rounds n s).1 (State.readFrames rounds n s).2 ∧
      (State.readFrames rounds n s).2.length = n := by
  induction rounds with
  | zero =>
    intro n s hs hn
    exact ⟨.nil hs, (Nat.le_zero.mp hn).symm⟩
  | succ rounds ih =>
    intro n s hs hn
    rw [State.readFrames]
    split_ifs with hzero
    · exact ⟨.nil hs, hzero.symm⟩
    · obtain ⟨hround, hle, hpos⟩ := took_getNextBuffer hs n
      have hpos := hpos (Nat.pos_of_ne_zero hzero)
      obtain ⟨hrest, hlen⟩ := ih hround.fits
        (show n - (s.getNextBuffer n).2.length ≤ rounds by omega)
      refine ⟨hround.append hrest, ?_⟩
      rw [List.length_append, hlen]
      omega

/-! ## One read -/

lemma current_of_empty (hstarted : (s.dev.ins id).standby = false) (hs : s.Fits)
    (hzero : s.framesIn = 0) : s.Current id := by
  have hnil : s.left = [] := List.eq_nil_of_length_eq_zero (by rw [length_left hs, hzero])
  refine ⟨hstarted, ?_⟩
  rw [hnil]
  exact List.forall_mem_nil _

/-- The frames `got` have been returned. -/
def State.give (s : State) (got : List Frame) : State := { s with returned := s.returned ++ got }

/-- A read from the pcm: nothing may be left of what has been read before it. -/
lemma Inv.ordered_pcmRead (hs : Inv id s) (hstarted : (s.dev.ins id).standby = false) (n : ℕ) :
    Ordered ((s.pcmRead n).1.give (s.pcmRead n).2) ↔
      (0 < n → 0 < s.framesIn → ¬ s.Current id) := by
  have happend : ((s.pcmRead n).1.give (s.pcmRead n).2).returned =
      s.returned ++ (s.pcmRead n).2 := rfl
  rw [ordered_append_iff hs.ordered happend rfl]
  simp only [State.pcmRead, length_captured]
  constructor
  · intro h hn hpos hc
    have hstart := captured_inj hn h
    have hposition := (hs.current hc).2
    omega
  · intro h
    by_cases hc : s.Current id
    · have hposition := (hs.current hc).2
      have hzero : ¬ (0 < n ∧ 0 < s.framesIn) := fun h' => h h'.1 h'.2 hc
      rcases Nat.eq_zero_or_pos n with rfl | hn
      · rfl
      · rw [show s.position = s.returned.length by omega]
    · rw [hs.stale hstarted hc]

lemma Inv.pcmRead (hs : Inv id s) (hstarted : (s.dev.ins id).standby = false)
    (hordered : Ordered ((s.pcmRead n).1.give (s.pcmRead n).2)) :
    Inv id ((s.pcmRead n).1.give (s.pcmRead n).2) := by
  have hok := (hs.ordered_pcmRead hstarted n).mp hordered
  refine ⟨hs.mode, hs.af, hs.fits, hordered, hs.left, fun hc => ?_, fun _ hc => ?_⟩
  · obtain ⟨hleft, hposition⟩ := hs.current hc
    have hzero : ¬ (0 < n ∧ 0 < s.framesIn) := fun h' => hok h'.1 h'.2 hc
    simp only [State.give, State.pcmRead, List.length_append, length_captured]
    refine ⟨?_, by omega⟩
    rcases Nat.eq_zero_or_pos n with rfl | hn
    · exact hleft
    · have hempty : s.framesIn = 0 := by omega
      have hnil : s.left = [] :=
        List.eq_nil_of_length_eq_zero ((length_left hs.fits).trans hempty)
      show s.left = captured _ _ s.framesIn
      rw [hnil, hempty, captured_zero]
  · have hposition := hs.stale hstarted hc
    simp only [State.give, State.pcmRead, List.length_append, length_captured]
    omega

/-- A read through the buffer: nothing may be left of an earlier opening. -/
lemma Inv.ordered_took (hs : Inv id s) (hstarted : (s.dev.ins id).standby = false)
    {got : List Frame} (ht : Took s s' got) :
    Ordered (s'.give got) ↔ (0 < got.length → 0 < s.framesIn → s.Current id) := by
  obtain ⟨k, hframes, -⟩ := ht.frames
  have hreturned : (s'.give got).returned = s.returned ++ got := by
    rw [State.give, ht.returned]
  rw [ordered_append_iff hs.ordered hreturned ht.session]
  constructor
  · intro h hgot hpos
    -- the first frame was left in the buffer, and is one of this opening
    obtain ⟨f, got, rfl⟩ := List.exists_cons_of_length_pos hgot
    obtain ⟨g, rest, hleft⟩ := List.exists_cons_of_length_pos
      (Nat.lt_of_lt_of_eq hpos (length_left hs.fits).symm)
    rw [hleft] at hframes
    obtain ⟨rfl, -⟩ := List.cons.inj hframes
    have hf : f.session = s.session := mem_captured (h ▸ List.mem_cons_self)
    obtain ⟨j, -, hall⟩ := hs.left
    refine ⟨hstarted, fun g' hg' => ?_⟩
    rw [hall g' hg', ← hall f (hleft ▸ List.mem_cons_self), hf]
  · intro h
    rcases Nat.eq_zero_or_pos got.length with hgot | hgot
    · rw [List.eq_nil_of_length_eq_zero hgot]
      rfl
    · have hc : s.Current id := by
        rcases Nat.eq_zero_or_pos s.framesIn with hzero | hpos
        · exact current_of_empty hstarted hs.fits hzero
        · exact h hgot hpos
      obtain ⟨hleft, hposition⟩ := hs.current hc
      rw [hleft, hposition, captured_append] at hframes
      exact (captured_split hframes).1

lemma Inv.took (hs : Inv id s) (hc : s.Current id) {got : List Frame} (ht : Took s s' got) :
    Inv id (s'.give got) := by
  obtain ⟨k, hframes, hposition⟩ := ht.frames
  obtain ⟨hleft, hposition'⟩ := hs.current hc
  rw [hleft, hposition', captured_append] at hframes
  obtain ⟨-, hleft'⟩ := captured_split hframes
  have hlen : got.length + s'.framesIn = s.framesIn + k := by
    rw [← length_left ht.fits]
    simpa using congrArg List.length hframes
  rw [length_left ht.fits] at hleft'
  have hsession : ∀ f ∈ s'.left, f.session = s'.session := by
    intro f hf
    rw [hleft'] at hf
    exact (mem_captured hf).trans ht.session.symm
  have hreturned : (s'.give got).returned.length = s.returned.length + got.length := by
    rw [State.give, ht.returned, List.length_append]
  have hstandby : (s'.dev.ins id).standby = false := by
    rw [ht.dev]
    exact hc.1
  refine ⟨?_, ?_, ht.fits, ?_, ⟨_, Nat.le_refl _, hsession⟩, fun _ => ?_, fun _ hnot => ?_⟩
  · exact ht.dev.symm ▸ hs.mode
  · exact ht.dev.symm ▸ hs.af
  · exact (hs.ordered_took hc.1 ht).mpr fun _ _ => hc
  · rw [hreturned]
    refine ⟨?_, show s'.position = _ + s'.framesIn by omega⟩
    rw [show (s'.give got).session = s.session from ht.session]
    exact hleft'
  · exact absurd ⟨hstandby, hsession⟩ hnot

/-- A read of a stream that is not in standby. -/
lemma Inv.read (hs : Inv id s) (hstarted : (s.dev.ins id).standby = false) (n : ℕ) :
    (Ordered (s.read id n) → Inv id (s.read id n)) ∧
      (Ordered (s.read id n) ↔
        (0 < n → 0 < s.framesIn → (s.Current id ↔ (s.dev.ins id).preprocessors ≠ []))) := by
  obtain ⟨htook, hlen⟩ := took_readFrames n hs.fits (Nat.le_refl n)
  cases hpre : (s.dev.ins id).preprocessors with
  | nil =>
    have hread : s.read id n = (s.pcmRead n).1.give (s.pcmRead n).2 := by
      simp [State.read, hpre, State.give]
    rw [hread]
    refine ⟨hs.pcmRead hstarted, (hs.ordered_pcmRead hstarted n).trans ?_⟩
    simp
  | cons e es =>
    have hread : s.read id n =
        (State.readFrames n n s).1.give (State.readFrames n n s).2 := by
      simp [State.read, hpre, State.give]
    have hiff := hs.ordered_took hstarted htook
    rw [hlen] at hiff
    rw [hread]
    refine ⟨fun hordered => ?_, hiff.trans (by simp)⟩
    by_cases hc : s.Current id
    · exact hs.took hc htook
    · have hpos : 0 < s.framesIn := by
        by_contra hzero
        exact hc (current_of_empty hstarted hs.fits (by omega))
      obtain rfl : n = 0 := by
        by_contra hn
        exact hc (hiff.mp hordered (Nat.pos_of_ne_zero hn) hpos)
      simpa [State.readFrames, State.give] using hs

/-! ## The calls -/

/-- What a call leaves of the device: the stream stays in use or goes to standby. -/
structure Keeps (id : ℕ) (d d' : InputStream.State) : Prop where
  mode : d'.mode = d.mode
  ring : d'.ring = d.ring
  standby : (d'.ins id).standby = true ∨ (d'.ins id).standby = (d.ins id).standby

lemma Inv.keeps (hs : Inv id s) (hd : Keeps id s.dev dev) : Inv id { s with dev := dev } := by
  have hcurrent : State.Current id { s with dev := dev } → s.Current id := by
    rintro ⟨hstandby, hall⟩
    rcases hd.standby with h | h
    · exact nomatch hstandby.symm.trans h
    · exact ⟨h.symm.trans hstandby, hall⟩
  refine ⟨hd.mode.symm ▸ hs.mode, ?_, hs.fits, hs.ordered, hs.left,
    fun hc => hs.current (hcurrent hc), fun hstandby hc => ?_⟩
  · rw [InputStream.State.afMode, hd.ring]
    exact hs.af
  · rcases hd.standby with h | h
    · exact nomatch hstandby.symm.trans h
    · exact hs.stale (h.symm.trans hstandby) fun hs' => hc ⟨hstandby, hs'.2⟩

lemma keeps_doInputStandby (d : InputStream.State) : Keeps id d (d.doInputStandby id) := by
  unfold InputStream.State.doInputStandby
  split_ifs
  · exact ⟨rfl, rfl, Or.inr rfl⟩
  · exact ⟨rfl, rfl, Or.inl (by simp)⟩

lemma Keeps.trans {d d' d'' : InputStream.State} (h : Keeps id d d') (h' : Keeps id d' d'') :
    Keeps id d d'' := by
  refine ⟨h'.mode.trans h.mode, h'.ring.trans h.ring, ?_⟩
  rcases h'.standby with hs | hs
  · exact Or.inl hs
  · rcases h.standby with hs' | hs'
    · exact Or.inl (hs.trans hs')
    · exact Or.inr (hs.trans hs')

lemma keeps_setIn {d : InputStream.State} {i : InputStream.In}
    (h : i.standby = (d.ins id).standby) : Keeps id d (d.setIn id i) :=
  ⟨rfl, rfl, Or.inr (by simpa [InputStream.State.setIn] using h)⟩

lemma keeps_inAddAudioEffect (d : InputStream.State) (effect : ℕ) (descriptor : Option Bool) :
    Keeps id d (d.inAddAudioEffect id effect descriptor) := by
  simp only [InputStream.State.inAddAudioEffect]
  split_ifs
  · exact ⟨rfl, rfl, Or.inr rfl⟩
  · split
    · exact ⟨rfl, rfl, Or.inr rfl⟩
    · split_ifs
      · refine Keeps.trans (keeps_setIn ?_) (keeps_doInputStandby _)
        rfl
      · exact keeps_setIn rfl

lemma keeps_inRemoveAudioEffect (d : InputStream.State) (effect : ℕ) (descriptor : Option Bool) :
    Keeps id d (d.inRemoveAudioEffect id effect descriptor) := by
  simp only [InputStream.State.inRemoveAudioEffect]
  split_ifs
  · split
    · refine Keeps.trans (keeps_setIn ?_) (keeps_doInputStandby _)
      rfl
    · exact keeps_setIn rfl
  · exact ⟨rfl, rfl, Or.inr rfl⟩

/-- A start forgets nothing of what is left in the buffer. -/
lemma Inv.restart (hs : Inv id s) (hmode : dev.mode = s.dev.mode) (hring : dev.ring = s.dev.ring) :
    Inv id { s.restart with dev := dev } ∧
      (0 < s.framesIn → ¬ State.Current id { s.restart with dev := dev }) := by
  obtain ⟨k, hk, hall⟩ := hs.left
  have hempty : State.Current id { s.restart with dev := dev } → s.framesIn = 0 := by
    rintro ⟨-, hcurrent⟩
    rw [← length_left hs.fits]
    by_contra hne
    obtain ⟨f, rest, hleft⟩ := List.exists_cons_of_length_pos (Nat.pos_of_ne_zero hne)
    have hf : f ∈ s.left := hleft ▸ List.mem_cons_self
    have hnew : f.session = s.session + 1 := hcurrent f hf
    rw [hall f hf] at hnew
    omega
  refine ⟨⟨hmode.symm ▸ hs.mode, ?_, hs.fits, rfl, ⟨k, Nat.le_succ_of_le hk, hall⟩,
    fun hc => ?_, fun _ _ => rfl⟩, fun hpos hc => ?_⟩
  · rw [InputStream.State.afMode, hring]
    exact hs.af
  · have hzero := hempty hc
    have hnil : s.left = [] :=
      List.eq_nil_of_length_eq_zero ((length_left hs.fits).trans hzero)
    show s.left = captured _ _ s.framesIn ∧ 0 = 0 + s.framesIn
    rw [hnil, hzero]
    exact ⟨rfl, rfl⟩
  · exact absurd (hempty hc) (Nat.ne_of_gt hpos)

/-- The stream that an `in_read` reads from. -/
lemma Inv.start (hs : Inv id s) : ∃ dev h t, s.dev.inRead id (s.opens id) = (dev, some h) ∧
    t = { (if (s.dev.ins id).standby then s.restart else s) with dev := dev } ∧ Inv id t ∧
    (t.dev.ins id).standby = false ∧
    (t.dev.ins id).preprocessors = (s.dev.ins id).preprocessors ∧ t.framesIn = s.framesIn ∧
    (0 < s.framesIn → (t.Current id ↔ s.Current id)) := by
  cases hstandby : (s.dev.ins id).standby with
  | true =>
    have hstart : s.dev.CanStart id (s.opens id) :=
      ⟨(s.dev.ins id).requestedRate, rfl, fun h => absurd rfl h⟩
    obtain ⟨rate, resampler, heq⟩ := hstart.startInputStream hs.mode
    let i : InputStream.In :=
      { s.dev.ins id with rate := rate, pcm := .live, resampler := resampler, standby := false }
    have hread : s.dev.inRead id (s.opens id) = (s.dev.put id i (some id), some .live) := by
      simp [InputStream.State.inRead, hs.mode, hs.af, hstandby, heq, i]
    have hins : (s.dev.put id i (some id)).ins id = i := InputStream.ins_put i _
    have hmode : (s.dev.put id i (some id)).mode = s.dev.mode := rfl
    obtain ⟨hinv, hstale⟩ := hs.restart hmode rfl
    refine ⟨_, _, _, hread, rfl, hinv, ?_, ?_, rfl, fun hpos => ?_⟩
    · have hstarted := congrArg InputStream.In.standby hins
      exact hstarted
    · have hpre := congrArg InputStream.In.preprocessors hins
      exact hpre
    · exact iff_of_false (hstale hpos) fun hc =>
        absurd (hc.1.symm.trans hstandby) Bool.false_ne_true
  | false =>
    have hread : s.dev.inRead id (s.opens id) = (s.dev, some (s.dev.ins id).pcm) := by
      simp [InputStream.State.inRead, hs.mode, hs.af, hstandby]
    exact ⟨_, _, s, hread, rfl, hs, hstandby, rfl, rfl, fun _ => Iff.rfl⟩

/-- A call under the condition. -/
lemma Inv.step {c : Call} (hs : Inv id s) (hstep : s.step id c = some s') :
    (Ordered s' → Inv id s') ∧ (Ordered s' ↔ ReadOk id c s) := by
  have hother : Inv id s' → (Ordered s' → Inv id s') ∧ (Ordered s' ↔ True) := fun h =>
    ⟨fun _ => h, iff_true_intro h.ordered⟩
  cases c with
  | inRead n =>
    obtain rfl := Option.some.inj hstep
    obtain ⟨dev, h, t, hread, ht, hinv, hstarted, hpre, hframes, hcurrent⟩ := hs.start
    have hinRead : s.inRead id n = t.read id n := by
      rw [State.inRead, hread, ht]
    obtain ⟨hkeep, hiff⟩ := hinv.read hstarted n
    rw [hinRead]
    refine ⟨hkeep, hiff.trans ?_⟩
    rw [hpre, hframes]
    refine forall_congr' fun _ => forall_congr' fun hpos => ?_
    rw [hcurrent hpos]
  | inStandby =>
    obtain rfl := Option.some.inj hstep
    exact hother (hs.keeps (keeps_doInputStandby _))
  | inAddAudioEffect effect descriptor =>
    obtain rfl := Option.some.inj hstep
    exact hother (hs.keeps (keeps_inAddAudioEffect _ effect descriptor))
  | inRemoveAudioEffect effect descriptor =>
    obtain rfl := Option.some.inj hstep
    exact hother (hs.keeps (keeps_inRemoveAudioEffect _ effect descriptor))

lemma State.Opened.inv (hs : s.Opened id) : Inv id s := by
  have hnil : s.left = [] := by
    rw [State.left, hs.framesIn]
    exact List.drop_of_length_le (Nat.le_of_eq hs.buffer)
  refine ⟨hs.mode, hs.af, ⟨hs.buffer, ?_⟩, ?_, ⟨s.session, Nat.le_refl _, ?_⟩, fun hc => ?_,
    fun hstandby => ?_⟩
  · rw [hs.framesIn]
    exact Nat.zero_le _
  · rw [Ordered, hs.returned]
    rfl
  · rw [hnil]
    exact List.forall_mem_nil _
  · exact nomatch hc.1.symm.trans hs.standby
  · exact nomatch hstandby.symm.trans hs.standby

/-- **The order of captured frames.**  Along any calls on a stream, what has been returned since the
pcm was opened is what it has captured, if and only if every read of some frames that finds frames
left in the buffer is one with effects where they were read since the stream was started, and one
without effects where they were not. -/
theorem ordered_iff (id : ℕ) (s : State) (hs : s.Opened id) (cs : List Call) :
    Framework.Along (State.step id) Ordered (fun _ _ _ => True) s cs ↔
      Framework.Meets (State.step id) (ReadOk id) s cs := by
  refine Framework.along_iff_meets (fun hs : Inv id _ => hs.ordered) ?_ ?_ cs hs.inv
  · rintro c s s' hs hok hstep
    obtain ⟨hkeep, hiff⟩ := hs.step hstep
    exact ⟨hkeep (hiff.mpr hok), trivial⟩
  · rintro c s s' hs hstep - hordered
    exact (hs.step hstep).2.mp hordered

/-- A device with an open stream, in standby. -/
def opened : State where
  dev := InputStream.oneCard
  buffer := List.replicate periodSize ⟨0, 0⟩
  framesIn := 0
  session := 0
  position := 0
  returned := []

lemma opened_opened : opened.Opened 0 :=
  ⟨by decide, rfl, rfl, List.length_replicate, rfl, rfl⟩

/-- Reads with an effect, of more than a period in all. -/
theorem ordered_iff_effect : Framework.Along (State.step 0) Ordered (fun _ _ _ => True) opened
    [.inAddAudioEffect 7 (some false), .inRead 1000, .inRead 500] := by
  refine (ordered_iff 0 opened opened_opened _).mpr ⟨trivial, fun s₁ h₁ => ⟨trivial, trivial, ?_⟩⟩
  obtain rfl := Option.some.inj h₁
  rintro s₂ h₂
  obtain rfl := Option.some.inj h₂
  refine ⟨fun _ hpos => absurd hpos (by decide +kernel), trivial, fun s₃ h₃ => ⟨?_, trivial⟩⟩
  intro _ _
  refine iff_of_true ⟨by decide +kernel, ?_⟩ (by decide +kernel)
  decide +kernel

/-- What is left over is returned behind later frames, or after a standby. -/
theorem frames_out_of_order : opened.Opened 0 ∧
    (∃ s, [.inAddAudioEffect 7 (some false), .inRead 1, .inRemoveAudioEffect 7 (some false),
        .inRead 1].foldlM (State.step 0) opened = some s ∧
      s.returned = [⟨1, 0⟩, ⟨1, 1024⟩]) ∧
    ∃ s, [.inAddAudioEffect 7 (some false), .inRead 1, .inStandby, .inRead 1].foldlM
        (State.step 0) opened = some s ∧
      s.session = 2 ∧ s.returned = [⟨1, 1⟩] ∧ ¬ Ordered s := by
  refine ⟨opened_opened, ⟨_, rfl, by decide +kernel⟩, _, rfl, by decide +kernel,
    by decide +kernel, ?_⟩
  unfold Ordered
  decide +kernel

end Softwinner.Audio.CaptureOrder

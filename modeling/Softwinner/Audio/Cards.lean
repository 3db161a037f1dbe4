import Softwinner.Audio.Capture

/-!
# The output cards

The loop of `out_write` over the cards, with the frames that it sends.  All cards are served from
the caller's buffer, and the loop carries four things from one card to the next: `in_frames`, which
a resampler sets to what it has consumed; `out_frames`, which the next resampler takes for the room
it has; the caller's buffer, which the conversion to one channel changes in place; and
`out->buffer`, which every resampler fills anew.

`outWrite` returns the indices that the loop visits, with what is sent to the card.  The loop starts
at `MAX_AUDIO_DEVICES`, one behind the table.  `cards_iff` says so, and when the frames of a card
are the same as if it were the only one.

What comes before the loop is `Capture.State.prepare`.  The echo reference, which reads the caller's
buffer and leaves the frames alone, is left out.
-/

namespace Softwinner.Audio.Cards

open OutputStream (Card maxAudioDevices)
open Capture (frameSize resamplerBufferSize captureSize)

/-! ## Frames and resamplers -/

/-- A frame of two channels with 16 bits. -/
@[ext]
structure Frame where
  left0 : UInt8
  left1 : UInt8
  right0 : UInt8
  right1 : UInt8
  deriving DecidableEq

def Frame.byte (f : Frame) : ℕ → UInt8
  | 0 => f.left0
  | 1 => f.left1
  | 2 => f.right0
  | _ => f.right1

/-- The first `n` frames of a buffer. -/
def frames (m : ℕ → UInt8) (n : ℕ) : List Frame :=
  (List.range n).map fun i => ⟨m (4 * i), m (4 * i + 1), m (4 * i + 2), m (4 * i + 3)⟩

/-- The first `n` bytes of a buffer. -/
def bytes (m : ℕ → UInt8) (n : ℕ) : List UInt8 := (List.range n).map m

/-- A buffer with frames stored at its start. -/
def storeFrames (fs : List Frame) (m : ℕ → UInt8) (k : ℕ) : UInt8 :=
  match fs[k / 4]? with
  | some f => f.byte (k % 4)
  | none => m k

/-- A resampler in the state that a call finds it in: how many frames it consumes, and the frames
that it produces, when it is offered frames and has room for some. -/
structure Resampler where
  resample : List Frame → ℕ → ℕ × List Frame
  consumed_le : ∀ input room, (resample input room).1 ≤ input.length
  produced_le : ∀ input room, (resample input room).2.length ≤ room

/-- The conversion of `n` frames to one channel, in place. -/
def downmix (n : ℕ) (m : ℕ → UInt8) : ℕ → UInt8 :=
  (List.range n).foldl
    (fun m i =>
      let m := Function.update m (2 * i + 2) (m (4 * i + 4))
      Function.update m (2 * i + 3) (m (4 * i + 5)))
    m

/-- What a card with so many channels is to get of some frames: all channels, or the first one. -/
def encode (channels : ℕ) (fs : List Frame) : List UInt8 :=
  if channels = 2 then fs.flatMap fun f => [f.left0, f.left1, f.right0, f.right1]
  else fs.flatMap fun f => [f.left0, f.left1]

/-! ## The loop -/

/-- An `out_write`. -/
structure Write extends OutputStream.WriteInput where
  /-- The caller's buffer, and what is behind it. -/
  memory : ℕ → UInt8
  bytes : ℕ
  usbChannels : Card → Option ℕ
  resampler : Card → Resampler
  /-- What is in `out->buffer`. -/
  buffer : ℕ → UInt8

/-- What `prepare` takes of a call; it does not come to the resamplers. -/
def Write.toCapture (x : Write) : Capture.Write :=
  { x.toWriteInput with
    memory := fun k => x.memory k.toNat, bytes := x.bytes, usbChannels := x.usbChannels
    consumed := fun _ n => n, consumed_le := fun _ n => Nat.le_refl n, echo := false }

/-- What the loop carries from one card to the next. -/
structure Shared where
  inFrames : ℕ
  outFrames : ℕ
  memory : ℕ → UInt8
  buffer : ℕ → UInt8

/-- What a card is served with: its channels, the frames and the buffer with them, and what is sent
of them. -/
structure Played where
  channels : ℕ
  outFrames : ℕ
  buf : ℕ → UInt8
  sent : List UInt8

/-- A visit of the loop. -/
structure Visit where
  index : ℕ
  played : Option Played

/-- The end of the loop's body, for the buffer `buf`, and what becomes of the buffer. -/
def sendFrames (channels outFrames : ℕ) (buf : ℕ → UInt8) : Played × (ℕ → UInt8) :=
  if channels = 2 then (⟨channels, outFrames, buf, bytes buf (outFrames * frameSize)⟩, buf)
  else
    let mono := downmix outFrames buf
    (⟨channels, outFrames, buf, bytes mono (outFrames * frameSize / 2)⟩, mono)

/-- The loop's body for an active card. -/
def playCard (r : Option Resampler) (channels : ℕ) (b : Shared) : Played × Shared :=
  match r with
  | some r =>
    let (consumed, produced) := r.resample (frames b.memory b.inFrames) b.outFrames
    let (played, buffer) := sendFrames channels produced.length (storeFrames produced b.buffer)
    (played, ⟨consumed, produced.length, b.memory, buffer⟩)
  | none =>
    let (played, memory) := sendFrames channels b.inFrames b.memory
    (played, ⟨b.inFrames, b.inFrames, memory, b.buffer⟩)

section Loop

variable (s : Capture.State) (x : Write)

/-- The card at an index, if it is active.  Behind the table, `flag_out` are bytes of the text
`in_devices`. -/
def playing (i : ℕ) : Option Card :=
  if h : i < maxAudioDevices then if s.out.plays ⟨i, h⟩ then some ⟨i, h⟩ else none else none

/-- The resampler of a card. -/
def resamplerOf (c : Card) : Option Resampler :=
  if s.out.multiResampler c then some (x.resampler c) else none

/-- The loop's body for a card of the stream. -/
def play (c : Card) (b : Shared) : Played × Shared :=
  playCard (resamplerOf s x c) (s.channels c) b

def loop : List ℕ → Shared → List Visit
  | [], _ => []
  | i :: is, b =>
    match playing s i with
    | some c =>
      ⟨i, some (play s x c b).1⟩ :: if x.pcmWrite c then loop is (play s x c b).2 else []
    | none => ⟨i, none⟩ :: loop is b

/-- From `MAX_AUDIO_DEVICES` down to 0. -/
def indices : List ℕ := (List.range (maxAudioDevices + 1)).reverse

/-- The variables in front of the loop; a capture has muted the buffer. -/
def shared : Shared where
  inFrames := x.bytes / frameSize
  outFrames := resamplerBufferSize / frameSize
  memory := if s.capturing then fun k => if k < captureSize then 0 else x.memory k else x.memory
  buffer := x.buffer

def outWrite : List Visit :=
  match s.prepare x.toCapture with
  | (_, false) => []
  | (s, true) => loop s x indices (shared s x)

/-! ## The property, and the condition -/

/-- What is sent to the card with an index. -/
def sentTo (vs : List Visit) (i : ℕ) : Option (List UInt8) :=
  ((vs.find? fun v => v.index == i).bind Visit.played).map Played.sent

/-- No card but `c` is active. -/
def alone (c : Card) : Capture.State :=
  let devManager (d : Card) : OutputStream.DevManager :=
    let entry := s.out.devManager d
    { entry with flagOutActive := entry.flagOutActive && decide (d = c) }
  { s with out := { s.out with devManager := devManager } }

/-- The resampler of `c` behaves like `r`. -/
def Write.behaving (c : Card) (r : Resampler) : Write :=
  { x with resampler := Function.update x.resampler c r }

/-- However the resampler of the card behaves, the card gets what it would get as the only one. -/
def Isolated (c : Card) : Prop :=
  ∀ r, sentTo (loop s (x.behaving c r) indices (shared s x)) c =
    sentTo (loop (alone s c) (x.behaving c r) indices (shared s x)) c

/-- The conversion to one channel reads only the frames that there are. -/
def MixesInside (p : Played) : Prop :=
  ∀ a ∈ Capture.downmix p.outFrames, a.writes = false → a.Inside (p.outFrames * frameSize)

/-- The cards of a call do not interfere; `s` is the state after the stream is started. -/
structure Separate (vs : List Visit) : Prop where
  table : ∀ v ∈ vs, v.index < maxAudioDevices
  isolated : vs ≠ [] → ∀ c, s.out.plays c = true → Isolated s x c
  mixes : ∀ v ∈ vs, ∀ p, v.played = some p → p.channels ≠ 2 →
    p.sent = encode p.channels (frames p.buf p.outFrames) ∧ MixesInside p

/-- The active cards, in the order of the loop. -/
def actives : List Card := indices.filterMap (playing s)

/-- A card that is served from the caller's buffer, and with one channel of it. -/
def Mixed (c : Card) : Prop := s.out.multiResampler c = false ∧ s.channels c ≠ 2

instance (c : Card) : Decidable (Mixed s c) := inferInstanceAs (Decidable (_ ∧ _))

/-- `in_frames` behind a card that has been offered all frames. -/
def framesLeft (c : Card) : ℕ :=
  let b := shared s x
  match resamplerOf s x c with
  | some r => (r.resample (frames b.memory b.inFrames) b.outFrames).1
  | none => b.inFrames

/-- `out_frames` behind a card that has been offered all frames. -/
def roomLeft (c : Card) : ℕ :=
  let b := shared s x
  match resamplerOf s x c with
  | some r => (r.resample (frames b.memory b.inFrames) b.outFrames).2.length
  | none => b.inFrames

/-- A sample of a buffer. -/
def sample (m : ℕ → UInt8) (j : ℕ) : UInt8 × UInt8 := (m (2 * j), m (2 * j + 1))

/-- The conversion to one channel leaves alone what the card gets of the caller's buffer. -/
def Unmixed (c : Card) : Prop :=
  let b := shared s x
  ∀ j, 0 < j → j ≤ b.inFrames → (Mixed s c → j % 2 = 0) →
    sample b.memory j = sample b.memory (2 * j)

/-- What the card gets does not tell the two states of the loop apart. -/
def Sees (c : Card) (b b' : Shared) : Prop :=
  ∀ r, (play s (x.behaving c r) c b).1.sent = (play s (x.behaving c r) c b').1.sent

/-- What the loop carries behind the cards `front`, if each of them has found what the first one
finds. -/
structure Inv (front : List Card) (b : Shared) : Prop where
  inFrames : b.inFrames = (front.getLast?.map (framesLeft s x)).getD (shared s x).inFrames
  outFrames : b.outFrames = (front.getLast?.map (roomLeft s x)).getD (shared s x).outFrames
  mixed : (∃ d ∈ front, Mixed s d) →
    b.memory = downmix (shared s x).inFrames (shared s x).memory
  plain : (¬ ∃ d ∈ front, Mixed s d) → b.memory = (shared s x).memory

/-- What a card finds behind the cards `front`. -/
def Found (front : List Card) (c : Card) : Prop :=
  (∀ d, front.getLast? = some d → framesLeft s x d = (shared s x).inFrames ∧
    (s.out.multiResampler c = true → roomLeft s x d = (shared s x).outFrames)) ∧
  ((∃ d ∈ front, Mixed s d) → Unmixed s x c)

/-- A card that comes after another one finds what that one has found: all frames, and, if it has a
resampler, all the room; and no card before it has changed its part of the buffer. -/
def Undisturbed : Prop :=
  ∀ front c back, actives s = front ++ c :: back → Found s x front c

end Loop

variable {s : Capture.State} {x : Write} {c : Card} {b b' : Shared} {r : Resampler} {n : ℕ}
  {m m' : ℕ → UInt8} {front : List Card}

/-! ## Buffers -/

lemma downmix_succ (n : ℕ) (m : ℕ → UInt8) : downmix (n + 1) m =
    let m := downmix n m
    let m := Function.update m (2 * n + 2) (m (4 * n + 4))
    Function.update m (2 * n + 3) (m (4 * n + 5)) := by
  unfold downmix
  rw [List.range_succ, List.foldl_append]
  rfl

/-- A byte is read before the loop writes to it. -/
lemma downmix_apply (n : ℕ) (m : ℕ → UInt8) (k : ℕ) :
    downmix n m k = if 2 ≤ k ∧ k < 2 * n + 2 then m (4 * (k / 2) + k % 2) else m k := by
  induction n generalizing k with
  | zero =>
    rw [if_neg (by omega)]
    rfl
  | succ n ih =>
    have hlow : downmix n m (4 * n + 4) = m (4 * n + 4) := by rw [ih, if_neg (by omega)]
    have hhigh : downmix n m (4 * n + 5) = m (4 * n + 5) := by rw [ih, if_neg (by omega)]
    rw [downmix_succ]
    simp only [Function.update_apply]
    rw [if_neg (show ¬ 4 * n + 5 = 2 * n + 2 by omega), hlow, hhigh, ih]
    by_cases hk3 : k = 2 * n + 3
    · rw [if_pos hk3, if_pos (by omega)]
      congr 1
      omega
    · rw [if_neg hk3]
      by_cases hk2 : k = 2 * n + 2
      · rw [if_pos hk2, if_pos (by omega)]
        congr 1
        omega
      · rw [if_neg hk2]
        by_cases hk : 2 ≤ k ∧ k < 2 * n + 2
        · rw [if_pos hk, if_pos (by omega)]
        · rw [if_neg hk, if_neg (by omega)]

/-- The sample at `j` becomes the first channel of frame `j`. -/
lemma sample_downmix (n : ℕ) (m : ℕ → UInt8) (j : ℕ) :
    sample (downmix n m) j = if 0 < j ∧ j ≤ n then sample m (2 * j) else sample m j := by
  unfold sample
  rw [downmix_apply, downmix_apply]
  by_cases hj : 0 < j ∧ j ≤ n
  · rw [if_pos hj, if_pos (by omega), if_pos (by omega)]
    congr 2 <;> omega
  · rw [if_neg hj, if_neg (by omega), if_neg (by omega)]

lemma sample_ext (h : ∀ j, sample m j = sample m' j) : m = m' := by
  funext k
  have hj := Prod.ext_iff.mp (h (k / 2))
  simp only [sample] at hj
  rcases Nat.mod_two_eq_zero_or_one k with hk | hk
  · have heq : k = 2 * (k / 2) := by omega
    rw [heq]
    exact hj.1
  · have heq : k = 2 * (k / 2) + 1 := by omega
    rw [heq]
    exact hj.2

/-- A conversion that leaves the first channel alone is not changed by another one. -/
lemma downmix_downmix
    (h : ∀ j, 0 < j → j ≤ n → j % 2 = 0 → sample m j = sample m (2 * j)) :
    downmix n (downmix n m) = downmix n m := by
  refine sample_ext fun j => ?_
  rw [sample_downmix, sample_downmix n m j]
  by_cases hj : 0 < j ∧ j ≤ n
  · rw [if_pos hj, if_pos hj, sample_downmix]
    by_cases hj2 : 2 * j ≤ n
    · rw [if_pos ⟨by omega, hj2⟩, h (2 * j) (by omega) hj2 (by omega)]
    · rw [if_neg (by omega)]
  · rw [if_neg hj, if_neg hj]

lemma map_range_eq_iff {α : Type} {f g : ℕ → α} {n k : ℕ} :
    (List.range n).map f = (List.range k).map g ↔ n = k ∧ ∀ i < n, f i = g i := by
  constructor
  · intro heq
    have hlen : n = k := by simpa using congrArg List.length heq
    subst hlen
    exact ⟨rfl, fun i hi => List.map_inj_left.mp heq i (List.mem_range.mpr hi)⟩
  · rintro ⟨rfl, hall⟩
    exact List.map_inj_left.mpr fun i hi => hall i (List.mem_range.mp hi)

@[simp] lemma length_frames (m : ℕ → UInt8) (n : ℕ) : (frames m n).length = n := by
  simp [frames]

lemma bytes_succ (m : ℕ → UInt8) (n : ℕ) : bytes m (n + 1) = bytes m n ++ [m n] := by
  simp [bytes, List.range_succ]

lemma frames_succ (m : ℕ → UInt8) (n : ℕ) :
    frames m (n + 1) =
      frames m n ++ [⟨m (4 * n), m (4 * n + 1), m (4 * n + 2), m (4 * n + 3)⟩] := by
  simp [frames, List.range_succ]

lemma bytes_frames (m : ℕ → UInt8) (n : ℕ) : bytes m (4 * n) = encode 2 (frames m n) := by
  induction n with
  | zero => rfl
  | succ n ih =>
    have hsplit : 4 * (n + 1) = 4 * n + 1 + 1 + 1 + 1 := by omega
    rw [hsplit, bytes_succ, bytes_succ, bytes_succ, bytes_succ, ih, frames_succ]
    simp [encode]

/-- The conversion has the first channel of each frame in front. -/
lemma bytes_downmix {channels : ℕ} (hch : channels ≠ 2) {k : ℕ} (hk : k ≤ n) :
    bytes (downmix n m) (2 * k) = encode channels (frames m k) := by
  induction k with
  | zero => simp [bytes, encode, frames]
  | succ k ih =>
    have hsplit : 2 * (k + 1) = 2 * k + 1 + 1 := by omega
    have hsample : sample (downmix n m) k = sample m (2 * k) := by
      rw [sample_downmix]
      by_cases hpos : 0 < k
      · rw [if_pos ⟨hpos, by omega⟩]
      · obtain rfl : k = 0 := by omega
        rfl
    obtain ⟨hleft, hright⟩ := Prod.mk.inj hsample
    have hfour : 2 * (2 * k) = 4 * k := by omega
    rw [hfour] at hleft hright
    rw [hsplit, bytes_succ, bytes_succ, ih (by omega), frames_succ, hleft, hright]
    simp [encode, hch]

/-- What is sent are the frames, for the channels that the card has. -/
lemma sendFrames_sent (channels n : ℕ) (m : ℕ → UInt8) :
    (sendFrames channels n m).1.sent = encode channels (frames m n) := by
  have hsize : frameSize = 4 := rfl
  unfold sendFrames
  by_cases hch : channels = 2
  · rw [if_pos hch, hch, ← bytes_frames, hsize, Nat.mul_comm]
  · have hhalf : n * 4 / 2 = 2 * n := by omega
    simp only [if_neg hch, hsize, hhalf]
    exact bytes_downmix hch (Nat.le_refl n)

/-- Stored frames are read back. -/
lemma frames_storeFrames (fs : List Frame) (m : ℕ → UInt8) :
    frames (storeFrames fs m) fs.length = fs := by
  refine List.ext_getElem (length_frames _ _) fun i h1 h2 => ?_
  have hbyte : ∀ j < 4, storeFrames fs m (4 * i + j) = fs[i].byte j := by
    intro j hj
    have hdiv : (4 * i + j) / 4 = i := by omega
    have hmod : (4 * i + j) % 4 = j := by omega
    rw [storeFrames, hdiv, hmod, List.getElem?_eq_getElem h2]
  have h0 := hbyte 0 (by omega)
  rw [Nat.add_zero] at h0
  simp only [frames, List.getElem_map, List.getElem_range, h0, hbyte 1 (by omega),
    hbyte 2 (by omega), hbyte 3 (by omega)]
  rfl

/-! ## One card -/

lemma resamplerOf_behaving (r : Resampler) :
    resamplerOf s (x.behaving c r) c = if s.out.multiResampler c then some r else none := by
  simp [resamplerOf, Write.behaving]

lemma resamplerOf_behaving_of_ne {d : Card} (h : d ≠ c) (r : Resampler) :
    resamplerOf s (x.behaving c r) d = resamplerOf s x d := by
  simp [resamplerOf, Write.behaving, Function.update_of_ne h]

lemma play_behaving_of_ne {d : Card} (h : d ≠ c) (r : Resampler) (b : Shared) :
    play s (x.behaving c r) d b = play s x d b := by
  rw [play, play, resamplerOf_behaving_of_ne h]

lemma playCard_sent (channels : ℕ) (b : Shared) :
    (playCard (some r) channels b).1.sent =
        encode channels (r.resample (frames b.memory b.inFrames) b.outFrames).2 ∧
      (playCard none channels b).1.sent = encode channels (frames b.memory b.inFrames) := by
  constructor
  · simp only [playCard]
    rw [sendFrames_sent, frames_storeFrames]
  · simp only [playCard]
    rw [sendFrames_sent]

lemma encode_two_inj (fs gs : List Frame) : encode 2 fs = encode 2 gs ↔ fs = gs := by
  induction fs generalizing gs with
  | nil => cases gs <;> simp [encode]
  | cons f fs ih =>
    cases gs with
    | nil => simp [encode]
    | cons g gs =>
      have ih := ih gs
      simp only [encode, if_true] at ih
      simp [encode, ih, Frame.ext_iff, and_assoc]

lemma encode_mono_inj {channels : ℕ} (hch : channels ≠ 2) (fs gs : List Frame) :
    encode channels fs = encode channels gs ↔
      fs.map (fun f => (f.left0, f.left1)) = gs.map fun f => (f.left0, f.left1) := by
  induction fs generalizing gs with
  | nil => cases gs <;> simp [encode, hch]
  | cons f fs ih =>
    cases gs with
    | nil => simp [encode, hch]
    | cons g gs =>
      have ih := ih gs
      simp only [encode, if_neg hch] at ih
      simp [encode, hch, ih, and_assoc]

/-- Two buffers with the same frames agree on all samples of them. -/
lemma frames_eq_iff {k : ℕ} :
    frames m n = frames m' k ↔ n = k ∧ ∀ j < 2 * n, sample m j = sample m' j := by
  rw [frames, frames, map_range_eq_iff]
  refine and_congr_right fun _ => ⟨fun h j hj => ?_, fun h i hi => ?_⟩
  · have hi := h (j / 2) (by omega)
    simp only [Frame.mk.injEq] at hi
    unfold sample
    rcases Nat.mod_two_eq_zero_or_one j with hmod | hmod
    · have heq : 2 * j = 4 * (j / 2) := by omega
      rw [heq, hi.1, hi.2.1]
    · have heq : 2 * j = 4 * (j / 2) + 2 := by omega
      rw [heq, hi.2.2.1, hi.2.2.2]
  · have heven := Prod.mk.inj (h (2 * i) (by omega))
    have hodd := Prod.mk.inj (h (2 * i + 1) (by omega))
    have heq : 2 * (2 * i) = 4 * i := by omega
    have heq' : 2 * (2 * i + 1) = 4 * i + 2 := by omega
    rw [heq] at heven
    rw [heq'] at hodd
    simp only [Frame.mk.injEq]
    exact ⟨heven.1, heven.2, hodd.1, hodd.2⟩

/-- On one channel, on every other sample. -/
lemma encode_mono_eq_iff {channels k : ℕ} (hch : channels ≠ 2) :
    encode channels (frames m n) = encode channels (frames m' k) ↔
      n = k ∧ ∀ j < 2 * n, j % 2 = 0 → sample m j = sample m' j := by
  rw [encode_mono_inj hch, frames, frames, List.map_map, List.map_map, map_range_eq_iff]
  refine and_congr_right fun _ => ⟨fun h j hj hmod => ?_, fun h i hi => ?_⟩
  · have heq : 2 * j = 4 * (j / 2) := by omega
    have hi := h (j / 2) (by omega)
    simp only [Function.comp_apply] at hi
    rw [sample, sample, heq]
    exact hi
  · have heven := h (2 * i) (by omega) (by omega)
    have heq : 2 * (2 * i) = 4 * i := by omega
    rw [sample, sample, heq] at heven
    exact heven

/-- The resampler that consumes and produces nothing. -/
def Resampler.idle : Resampler :=
  ⟨fun _ _ => (0, []), fun _ _ => Nat.zero_le _, fun _ _ => Nat.zero_le _⟩

/-- The resampler that produces a frame for one input and one room only. -/
def Resampler.probe (input : List Frame) (room : ℕ) (hroom : 0 < room) : Resampler where
  resample := fun input' room' =>
    if input' = input ∧ room' = room then (0, [⟨0, 0, 0, 0⟩]) else (0, [])
  consumed_le := fun input' room' => by
    split_ifs
    · exact Nat.zero_le _
    · exact Nat.zero_le _
  produced_le := fun input' room' => by
    split_ifs with hfound
    · rw [hfound.2]
      exact hroom
    · exact Nat.zero_le _

/-- A resampler may tell all inputs, and rooms, apart. -/
lemma sees_resampled_iff (hres : s.out.multiResampler c = true) (hroom : 0 < b'.outFrames) :
    Sees s x c b b' ↔
      frames b.memory b.inFrames = frames b'.memory b'.inFrames ∧ b.outFrames = b'.outFrames := by
  have hsent : ∀ r b, (play s (x.behaving c r) c b).1.sent =
      encode (s.channels c) (r.resample (frames b.memory b.inFrames) b.outFrames).2 := by
    intro r b
    rw [play, resamplerOf_behaving, if_pos hres]
    exact (playCard_sent _ b).1
  simp only [Sees, hsent]
  constructor
  · intro h
    by_contra hne
    have hr := h (Resampler.probe (frames b'.memory b'.inFrames) b'.outFrames hroom)
    simp only [Resampler.probe, if_neg hne, and_self, if_true, encode, List.flatMap_cons,
      List.flatMap_nil] at hr
    split_ifs at hr
    · exact absurd hr (by simp)
    · exact absurd hr (by simp)
  · rintro ⟨hframes, hout⟩ r
    rw [hframes, hout]

lemma sees_plain_iff (hres : s.out.multiResampler c = false) :
    Sees s x c b b' ↔
      encode (s.channels c) (frames b.memory b.inFrames) =
        encode (s.channels c) (frames b'.memory b'.inFrames) := by
  have hsent : ∀ r b, (play s (x.behaving c r) c b).1.sent =
      encode (s.channels c) (frames b.memory b.inFrames) := by
    intro r b
    rw [play, resamplerOf_behaving, hres, if_neg Bool.false_ne_true]
    exact (@playCard_sent r _ b).2
  simp only [Sees, hsent]
  exact ⟨fun h => h Resampler.idle, fun h _ => h⟩

/-- What a card sees of the loop. -/
lemma sees_iff (hroom : 0 < b'.outFrames) :
    Sees s x c b b' ↔ b.inFrames = b'.inFrames ∧
      (∀ j < 2 * b.inFrames, (Mixed s c → j % 2 = 0) → sample b.memory j = sample b'.memory j) ∧
      (s.out.multiResampler c = true → b.outFrames = b'.outFrames) := by
  cases hres : s.out.multiResampler c with
  | true =>
    rw [sees_resampled_iff hres hroom, frames_eq_iff]
    simp [Mixed, hres, and_assoc]
  | false =>
    rw [sees_plain_iff hres]
    by_cases hch : s.channels c = 2
    · rw [hch, encode_two_inj, frames_eq_iff]
      simp [Mixed, hch]
    · rw [encode_mono_eq_iff hch]
      simp [Mixed, hres, hch]

/-! ## The cards in front of one -/

lemma inv_nil : Inv s x [] (shared s x) :=
  ⟨rfl, rfl, fun ⟨_, hd, _⟩ => absurd hd List.not_mem_nil, fun _ => rfl⟩

/-- A conversion in front changes the samples up to `in_frames`, and no others. -/
lemma Inv.sample (hb : Inv s x front b) (j : ℕ) : Cards.sample b.memory j =
    if (∃ d ∈ front, Mixed s d) ∧ 0 < j ∧ j ≤ (shared s x).inFrames then
      Cards.sample (shared s x).memory (2 * j)
    else Cards.sample (shared s x).memory j := by
  by_cases hmixed : ∃ d ∈ front, Mixed s d
  · rw [hb.mixed hmixed, sample_downmix]
    simp only [hmixed, true_and]
  · rw [hb.plain hmixed, if_neg fun h => hmixed h.1]

lemma Inv.unmixed_iff (hb : Inv s x front b) :
    (∀ j < 2 * (shared s x).inFrames, (Mixed s c → j % 2 = 0) →
        Cards.sample b.memory j = Cards.sample (shared s x).memory j) ↔
      ((∃ d ∈ front, Mixed s d) → Unmixed s x c) := by
  constructor
  · intro h hmixed j hpos hle heven
    have hj := h j (by omega) heven
    rw [hb.sample, if_pos ⟨hmixed, hpos, hle⟩] at hj
    exact hj.symm
  · intro h j _ heven
    rw [hb.sample]
    by_cases hj : (∃ d ∈ front, Mixed s d) ∧ 0 < j ∧ j ≤ (shared s x).inFrames
    · rw [if_pos hj]
      exact (h hj.1 j hj.2.1 hj.2.2 heven).symm
    · rw [if_neg hj]

/-- A card sees what the first one sees exactly if nothing is lost in front of it. -/
lemma Inv.sees_iff (hb : Inv s x front b) :
    Sees s x c b (shared s x) ↔ Found s x front c := by
  have hroom : 0 < (shared s x).outFrames :=
    show 0 < resamplerBufferSize / frameSize by decide
  have hframes : b.inFrames = (shared s x).inFrames ↔
      ∀ d, front.getLast? = some d → framesLeft s x d = (shared s x).inFrames := by
    rw [hb.inFrames]
    cases front.getLast? <;> simp
  have hout : b.outFrames = (shared s x).outFrames ↔
      ∀ d, front.getLast? = some d → roomLeft s x d = (shared s x).outFrames := by
    rw [hb.outFrames]
    cases front.getLast? <;> simp
  rw [Cards.sees_iff hroom, hout]
  unfold Found
  constructor
  · rintro ⟨hin, hmem, hres⟩
    rw [hin] at hmem
    exact ⟨fun d hd => ⟨hframes.mp hin d hd, fun h => hres h d hd⟩, hb.unmixed_iff.mp hmem⟩
  · rintro ⟨hlast, hmem⟩
    have hin := hframes.mpr fun d hd => (hlast d hd).1
    refine ⟨hin, ?_, fun h d hd => (hlast d hd).2 h⟩
    rw [hin]
    exact hb.unmixed_iff.mpr hmem

lemma exists_mixed_snoc :
    (∃ d ∈ front ++ [c], Mixed s d) ↔ (∃ d ∈ front, Mixed s d) ∨ Mixed s c := by
  simp [or_and_right, exists_or]

lemma play_memory (c : Card) (b : Shared) : (play s x c b).2.memory =
    if Mixed s c then downmix b.inFrames b.memory else b.memory := by
  by_cases hc : Mixed s c
  · obtain ⟨hres, hch⟩ := hc
    rw [if_pos ⟨hres, hch⟩, play, resamplerOf, hres]
    simp [playCard, sendFrames, hch]
  · rw [if_neg hc, play, resamplerOf]
    cases hres : s.out.multiResampler c with
    | true => rfl
    | false =>
      have hch : s.channels c = 2 := not_not.mp fun hch => hc ⟨hres, hch⟩
      simp [playCard, sendFrames, hch]

/-- A card that sees what the first one sees leaves behind what it would leave as the first one. -/
lemma Inv.snoc (hb : Inv s x front b) (hsees : Sees s x c b (shared s x)) :
    Inv s x (front ++ [c]) (play s x c b).2 := by
  have hroom : 0 < (shared s x).outFrames :=
    show 0 < resamplerBufferSize / frameSize by decide
  obtain ⟨hin, hmem, hout⟩ := (Cards.sees_iff hroom).mp hsees
  have hleft : (play s x c b).2.inFrames = framesLeft s x c ∧
      (play s x c b).2.outFrames = roomLeft s x c := by
    unfold play framesLeft roomLeft resamplerOf
    cases hres : s.out.multiResampler c with
    | true =>
      obtain ⟨hframes, hout⟩ := (sees_resampled_iff hres hroom).mp hsees
      simp only [if_true, playCard, hframes, hout, and_self]
    | false => simp [playCard, hin]
  have hdownmix : Mixed s c → downmix b.inFrames b.memory =
      downmix (shared s x).inFrames (shared s x).memory := by
    intro hc
    rw [hin] at hmem ⊢
    by_cases hmixed : ∃ d ∈ front, Mixed s d
    · have hsame := hb.unmixed_iff.mp hmem hmixed
      rw [hb.mixed hmixed]
      exact downmix_downmix fun j hpos hle heven => hsame j hpos hle fun _ => heven
    · rw [hb.plain hmixed]
  refine ⟨?_, ?_, fun hmixed => ?_, fun hplain => ?_⟩
  · rw [List.getLast?_concat]
    exact hleft.1
  · rw [List.getLast?_concat]
    exact hleft.2
  · rw [play_memory]
    by_cases hc : Mixed s c
    · rw [if_pos hc]
      exact hdownmix hc
    · rw [if_neg hc]
      exact hb.mixed ((exists_mixed_snoc.mp hmixed).resolve_right hc)
  · obtain ⟨hfront, hc⟩ := not_or.mp (mt exists_mixed_snoc.mpr hplain)
    rw [play_memory, if_neg hc]
    exact hb.plain hfront

/-- The loop's variables behind some active cards. -/
def after (s : Capture.State) (x : Write) (front : List Card) (b : Shared) : Shared :=
  front.foldl (fun b c => (play s x c b).2) b

/-- If each of the cards sees what the first one sees. -/
lemma inv_after
    (h : ∀ f d g b, front = f ++ d :: g → Inv s x f b → b = after s x f (shared s x) →
      Sees s x d b (shared s x)) :
    Inv s x front (after s x front (shared s x)) := by
  induction front using List.reverseRecOn with
  | nil => exact inv_nil
  | append_singleton front d ih =>
    have hinv := ih fun f e g b heq => h f e (g ++ [d]) b (by rw [heq]; simp)
    have hd := h front d [] _ rfl hinv rfl
    rw [after, List.foldl_append]
    exact hinv.snoc hd

/-- Each active card sees what the first one sees exactly if nothing is lost in front of any. -/
lemma sees_all_iff :
    (∀ front c back, actives s = front ++ c :: back →
      Sees s x c (after s x front (shared s x)) (shared s x)) ↔ Undisturbed s x := by
  constructor
  · intro h front c back heq
    have hinv : Inv s x front (after s x front (shared s x)) := by
      refine inv_after fun f d g b hf _ hb => ?_
      rw [hb]
      exact h f d (g ++ c :: back) (by rw [heq, hf]; simp)
    exact hinv.sees_iff.mp (h front c back heq)
  · intro h front c back heq
    have hinv : Inv s x front (after s x front (shared s x)) :=
      inv_after fun f d g b hf hinv _ =>
        hinv.sees_iff.mpr (h f d (g ++ c :: back) (by rw [heq, hf]; simp))
    exact hinv.sees_iff.mpr (h front c back heq)

/-! ## The loop -/

lemma playing_eq_some {i : ℕ} (h : playing s i = some c) : c.val = i ∧ s.out.plays c = true := by
  unfold playing at h
  split_ifs at h with hi hplays
  obtain rfl := Option.some.inj h
  exact ⟨rfl, hplays⟩

lemma playing_of_plays (h : s.out.plays c = true) : playing s c = some c := by
  unfold playing
  rw [dif_pos c.isLt, if_pos h]

/-- What is sent to a card, with the cards in front of it. -/
lemma sentTo_loop (hpcm : ∀ c, x.pcmWrite c = true) {i : ℕ} (back : List ℕ) :
    ∀ {is : List ℕ} {b : Shared}, i ∉ is → sentTo (loop s x (is ++ i :: back) b) i =
      (playing s i).map fun c => (play s x c (after s x (is.filterMap (playing s)) b)).1.sent := by
  intro is
  induction is with
  | nil =>
    intro b _
    simp only [List.nil_append, loop, List.filterMap_nil, after, List.foldl_nil]
    cases playing s i with
    | none => simp [sentTo]
    | some c => simp [sentTo]
  | cons k is ih =>
    intro b hi
    obtain ⟨hne, hi⟩ := not_or.mp (mt List.mem_cons.mpr hi)
    simp only [List.cons_append, loop, List.filterMap_cons]
    cases playing s k with
    | none =>
      have hrest := ih hi (b := b)
      simp only [sentTo] at hrest ⊢
      rw [List.find?_cons_of_neg (by simpa using Ne.symm hne)]
      exact hrest
    | some c =>
      have hrest := ih hi (b := (play s x c b).2)
      simp only [sentTo, hpcm, if_true] at hrest ⊢
      rw [List.find?_cons_of_neg (by simpa using Ne.symm hne)]
      exact hrest

lemma indices_nodup : indices.Nodup := List.nodup_reverse.mpr List.nodup_range

lemma mem_indices (c : Card) : c.val ∈ indices :=
  List.mem_reverse.mpr (List.mem_range.mpr (Nat.lt_succ_of_lt c.isLt))

lemma after_behaving (hc : c ∉ front) (r : Resampler) :
    after s (x.behaving c r) front b = after s x front b := by
  induction front generalizing b with
  | nil => rfl
  | cons d front ih =>
    obtain ⟨hne, hc⟩ := not_or.mp (mt List.mem_cons.mpr hc)
    have hd : (play s (x.behaving c r) d b).2 = (play s x d b).2 := by
      rw [play_behaving_of_ne (Ne.symm hne)]
    rw [after, List.foldl_cons, hd]
    exact ih hc

lemma playing_alone {i : ℕ} (hi : i ≠ c.val) : playing (alone s c) i = none := by
  unfold playing
  split_ifs with hlt hplays
  · have hne : (⟨i, hlt⟩ : Card) ≠ c := fun h => hi (congrArg Fin.val h)
    simp [alone, OutputStream.State.plays, hne] at hplays
  · rfl
  · rfl

lemma playing_alone_self (h : s.out.plays c = true) : playing (alone s c) c = some c := by
  refine playing_of_plays ?_
  simpa [alone, OutputStream.State.plays] using h

/-- Isolation, at the place of the card in the loop. -/
lemma isolated_iff (hpcm : ∀ c, x.pcmWrite c = true) (hplays : s.out.plays c = true)
    {is back : List ℕ} (hsplit : indices = is ++ c.val :: back) :
    Isolated s x c ↔
      Sees s x c (after s x (is.filterMap (playing s)) (shared s x)) (shared s x) := by
  have hnot : c.val ∉ is := by
    have hnodup := indices_nodup
    rw [hsplit] at hnodup
    exact fun hmem => (List.disjoint_of_nodup_append hnodup) hmem List.mem_cons_self
  have hfront : c ∉ is.filterMap (playing s) := by
    intro hmem
    obtain ⟨i, hi, hplaying⟩ := List.mem_filterMap.mp hmem
    rw [← (playing_eq_some hplaying).1] at hi
    exact hnot hi
  have hnone : is.filterMap (playing (alone s c)) = [] := by
    refine List.filterMap_eq_nil_iff.mpr fun i hi => playing_alone ?_
    rintro rfl
    exact hnot hi
  have hwith : ∀ r, sentTo (loop s (x.behaving c r) indices (shared s x)) c =
      some (play s (x.behaving c r) c
        (after s x (is.filterMap (playing s)) (shared s x))).1.sent := by
    intro r
    rw [hsplit, sentTo_loop (x := x.behaving c r) hpcm back hnot, playing_of_plays hplays,
      after_behaving hfront]
    rfl
  have halone : ∀ r, sentTo (loop (alone s c) (x.behaving c r) indices (shared s x)) c =
      some (play s (x.behaving c r) c (shared s x)).1.sent := by
    intro r
    rw [hsplit, sentTo_loop (x := x.behaving c r) hpcm back hnot, hnone,
      playing_alone_self hplays]
    rfl
  unfold Isolated Sees
  simp only [hwith, halone, Option.some_inj]

/-- The active cards are isolated exactly if nothing is lost in front of any. -/
lemma isolated_all_iff (hpcm : ∀ c, x.pcmWrite c = true) :
    (∀ c, s.out.plays c = true → Isolated s x c) ↔ Undisturbed s x := by
  rw [← sees_all_iff]
  constructor
  · intro h front c back heq
    obtain ⟨is, rest, hindices, rfl, hrest⟩ := List.filterMap_eq_append_iff.mp heq
    obtain ⟨skipped, i, back', rfl, hskipped, hi, -⟩ := List.filterMap_eq_cons_iff.mp hrest
    obtain ⟨rfl, hplays⟩ := playing_eq_some hi
    have hsplit : indices = (is ++ skipped) ++ c.val :: back' := by
      rw [hindices, List.append_assoc]
    have hsees := (isolated_iff hpcm hplays hsplit).mp (h c hplays)
    rw [List.filterMap_append, List.filterMap_eq_nil_iff.mpr hskipped, List.append_nil] at hsees
    exact hsees
  · intro h c hplays
    obtain ⟨is, back, hsplit⟩ := List.append_of_mem (mem_indices c)
    refine (isolated_iff hpcm hplays hsplit).mpr (h _ c (back.filterMap (playing s)) ?_)
    rw [actives, hsplit, List.filterMap_append, List.filterMap_cons, playing_of_plays hplays]

/-- What is sent to any card are the frames of the buffer that it is served from. -/
lemma play_sent {p : Played} (hp : p = (play s x c b).1) :
    p.sent = encode p.channels (frames p.buf p.outFrames) := by
  have hsend : ∀ channels n m, (sendFrames channels n m).1.sent =
      encode (sendFrames channels n m).1.channels
        (frames (sendFrames channels n m).1.buf (sendFrames channels n m).1.outFrames) := by
    intro channels n m
    rw [sendFrames_sent]
    unfold sendFrames
    split_ifs
    · rfl
    · rfl
  rw [hp]
  unfold play playCard
  split
  · exact hsend _ _ _
  · exact hsend _ _ _

lemma loop_sent {v : Visit} {p : Played} (is : List ℕ) :
    ∀ {b : Shared}, v ∈ loop s x is b → v.played = some p →
      p.sent = encode p.channels (frames p.buf p.outFrames) := by
  induction is with
  | nil => exact fun hv _ => absurd hv List.not_mem_nil
  | cons i is ih =>
    intro b hv hp
    rw [loop] at hv
    cases hi : playing s i with
    | none =>
      rw [hi] at hv
      rcases List.mem_cons.mp hv with rfl | hv
      · exact nomatch hp
      · exact ih hv hp
    | some c =>
      rw [hi] at hv
      rcases List.mem_cons.mp hv with rfl | hv
      · exact play_sent (Option.some.inj hp).symm
      · split_ifs at hv
        · exact ih hv hp
        · exact absurd hv List.not_mem_nil

/-- The conversion reads a frame more than there are. -/
lemma mixesInside_iff (p : Played) : MixesInside p ↔ p.outFrames = 0 := by
  have hsize : frameSize = 4 := rfl
  constructor
  · intro h
    by_contra hne
    have hlast : (⟨false, 4 * (p.outFrames - 1 : ℕ) + 4, 1⟩ : Capture.Access) ∈
        Capture.downmix p.outFrames := by
      refine List.mem_flatMap.mpr ⟨p.outFrames - 1, List.mem_range.mpr (by omega), ?_⟩
      simp
    have hle := (h _ hlast rfl).2
    rw [hsize] at hle
    simp only at hle
    omega
  · intro h a ha _
    rw [h] at ha
    exact absurd ha List.not_mem_nil

/-- The loop begins behind the table. -/
lemma outWrite_eq (s : Capture.State) (x : Write) : outWrite s x =
    if (s.prepare x.toCapture).2 then
      ⟨maxAudioDevices, none⟩ ::
        loop (s.prepare x.toCapture).1 x indices.tail (shared (s.prepare x.toCapture).1 x)
    else [] := by
  unfold outWrite
  cases s.prepare x.toCapture with
  | mk s' enters =>
    cases enters with
    | false => rfl
    | true => rfl

/-- **The cards of an `out_write`.**  The loop visits an index behind the table in every call that
comes to it.  The cards are isolated from each other exactly if each active card leaves to the next
one all frames, to a resampler all the room too, and a card with one channel leaves the buffer as it
is.  What is sent are the right channels of the frames of the buffer that the card is served from,
but the conversion to one channel reads behind these frames, unless there are none. -/
theorem cards_iff (s : Capture.State) (x : Write) (hpcm : ∀ c, x.pcmWrite c = true) :
    (Separate (s.prepare x.toCapture).1 x (outWrite s x) ↔ (s.prepare x.toCapture).2 = false) ∧
    ((∀ c, (s.prepare x.toCapture).1.out.plays c = true →
        Isolated (s.prepare x.toCapture).1 x c) ↔
      Undisturbed (s.prepare x.toCapture).1 x) ∧
    ∀ v ∈ outWrite s x, ∀ p, v.played = some p →
      p.sent = encode p.channels (frames p.buf p.outFrames) ∧
        (MixesInside p ↔ p.outFrames = 0) := by
  refine ⟨?_, isolated_all_iff hpcm, fun v hv p hp => ⟨?_, mixesInside_iff p⟩⟩
  · rw [outWrite_eq]
    cases (s.prepare x.toCapture).2 with
    | false =>
      simp only [Bool.false_eq_true, if_false, iff_true]
      exact ⟨fun v hv => absurd hv List.not_mem_nil, fun h => absurd rfl h,
        fun v hv => absurd hv List.not_mem_nil⟩
    | true =>
      simp only [if_true, Bool.true_eq_false, iff_false]
      intro h
      exact absurd (h.table _ List.mem_cons_self) (Nat.lt_irrefl _)
  · rw [outWrite_eq] at hv
    split_ifs at hv
    · rcases List.mem_cons.mp hv with rfl | hv
      · exact nomatch hp
      · exact loop_sent _ hv hp
    · exact absurd hv List.not_mem_nil

/-- A stream in standby, with the codec and a USB card. -/
def codecAndUsb : Capture.State where
  out :=
    { OutputStream.codecAndHdmi with
      devManager := fun c =>
        ⟨if c.val = 0 then "AUDIO_CODEC" else "AUDIO_USB_dac", c.val ≤ 1, c.val ≤ 1, c.val ≤ 1⟩ }
  channels := fun _ => 2
  capturing := false
  pcm := (AfRing.opened fun _ => 0).pcm

/-- A write of two frames, with a USB card that has so many channels. -/
def counting (channels : ℕ) : Write :=
  { OutputStream.plainWrite (fun _ => true) with
    memory := UInt8.ofNat, bytes := 8, usbChannels := fun _ => some channels
    resampler := fun _ => Resampler.idle, buffer := fun _ => 0 }

/-- The codec, behind a USB card that has two channels as well. -/
theorem cards_iff_stereo :
    Isolated (codecAndUsb.prepare (counting 2).toCapture).1 (counting 2) ⟨0, by decide⟩ := by
  have hchannels : ∀ d : Card,
      (codecAndUsb.prepare (counting 2).toCapture).1.channels d = 2 := by decide +kernel
  have hall := (cards_iff codecAndUsb (counting 2) fun _ => rfl).2.1.mpr fun front c back _ =>
    ⟨fun d _ => ⟨rfl, fun h => nomatch h⟩, fun ⟨d, _, hd⟩ => absurd (hchannels d) hd.2⟩
  exact hall _ (by decide +kernel)

/-- A USB card with one channel: the codec gets the first channel, and what is behind the buffer. -/
theorem codec_gets_mixed :
    sentTo (outWrite codecAndUsb (counting 1)) 0 = some [0, 1, 4, 5, 8, 9, 6, 7] ∧
      ¬ Separate (codecAndUsb.prepare (counting 1).toCapture).1 (counting 1)
        (outWrite codecAndUsb (counting 1)) := by
  refine ⟨by decide +kernel, fun h => ?_⟩
  have hcodec := h.isolated (by decide +kernel) ⟨0, by decide⟩ (by decide +kernel) Resampler.idle
  exact absurd hcodec (by decide +kernel)

end Softwinner.Audio.Cards

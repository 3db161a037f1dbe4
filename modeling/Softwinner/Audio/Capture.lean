import Softwinner.Audio.AfRing
import Softwinner.Audio.OutputStream

/-!
# Capture of the playback

While an AF input stream is open, `out_write` copies the caller's buffer into the ring of that stream
and then mutes it.  Both take `out_frames * frame_size` bytes, where `out_frames` is the size of the
resampler's buffer and not the caller's byte count.

A call is modelled with everything that it does to the caller's buffer: the copy, the muting, and
the loop over the cards, whose conversion to one channel reads a frame more than it has.  The ring
is that of `AfRing`, the stream that of `OutputStream`; `outWrite_out` says that the two models of
`out_write` agree.  `capture_iff` gives the exact condition for a sequence of calls to capture what
was written.
-/

namespace Softwinner.Audio.Capture

open Framework Framework.Ring AfRing OutputStream

-- `RESAMPLER_BUFFER_SIZE`, from `RESAMPLER_BUFFER_FRAMES`, from `SHORT_PERIOD_SIZE`
def resamplerBufferSize : ℕ := 4 * (1360 * 2 * 2)

/-- `audio_stream_frame_size`: two channels of 16 bits, from `out_get_channels` and
`out_get_format`. -/
def frameSize : ℕ := 2 * 2

/-- `out_frames * frame_size`, where the capture uses it. -/
def captureSize : ℕ := resamplerBufferSize / frameSize * frameSize

/-! ## A call -/

/-- An access to the memory of the caller; offsets are from `buffer` on. -/
structure Access where
  writes : Bool
  off : ℤ
  len : ℤ

/-- Inside a buffer of `n` bytes. -/
def Access.Inside (n : ℕ) (a : Access) : Prop := 0 ≤ a.off ∧ a.off + a.len ≤ n

/-- An `out_write`.  `memory` is the caller's memory from `buffer` on; `consumed` is what the
resampler of a card makes of `in_frames`, and `echo` that there is an echo reference. -/
structure Write extends WriteInput where
  memory : ℤ → UInt8
  bytes : ℕ
  usbChannels : Card → Option ℕ
  consumed : Card → ℕ → ℕ
  consumed_le : ∀ c n, consumed c n ≤ n
  echo : Bool

/-- The stream, the `channels` of `multi_config`, and the ring; `capturing` is `af_capture_flag`
together with `BufExist`. -/
structure State where
  out : OutputStream.State
  channels : Card → ℕ
  capturing : Bool
  pcm : PcmBufManager

/-- `start_output_stream` for `multi_config`: each card that the loop comes to is configured anew,
USB cards with the channels that they have. -/
def configCards (x : Write) (s : OutputStream.State) : List Card → (Card → ℕ) → Card → ℕ
  | [], channels => channels
  | c :: cs, channels =>
    if s.plays c then
      let n :=
        if "AUDIO_USB".toList.isPrefixOf (s.devManager c).name.toList then (x.usbChannels c).getD 2
        else 2
      let channels := Function.update channels c n
      if x.pcmOpen c && (!s.needsResampler x.toWriteInput c || x.createResampler c) then
        configCards x s cs channels
      else channels
    else configCards x s cs channels

/-- `WritePcmData`, as far as the ring is concerned. -/
def writePcmData (p : PcmBufManager) (data : List UInt8) : PcmBufManager :=
  if p.bufValideLen < data.length then p else (p.writeCopy data).writeUpdate data.length

/-- What `WritePcmData` reads of its `pInbuf`. -/
def writePcmReads (p : PcmBufManager) (inSize : ℕ) : List Access :=
  if p.bufValideLen < inSize then []
  else (p.writeCopies inSize).map fun c => ⟨false, c.caller, c.len⟩

/-- The conversion of `out_frames` frames to one channel, in place. -/
def downmix (outFrames : ℕ) : List Access :=
  (List.range outFrames).flatMap fun i : ℕ =>
    [⟨false, 4 * i + 4, 1⟩, ⟨true, 2 * i + 2, 1⟩, ⟨false, 4 * i + 5, 1⟩, ⟨true, 2 * i + 3, 1⟩]

namespace State

variable (s : State) (x : Write)

/-- `out_write` up to its copy, and whether it comes to it. -/
def prepare : State × Bool :=
  if s.out.mode.blocked then (s, false)
  else
    let out := s.out.updateRaw x.toWriteInput
    if out.rawFlag then ({ s with out := out }, false)
    else if out.standby then
      let channels := configCards x out OutputStream.State.cards s.channels
      match out.startOutputStream x.toWriteInput with
      | (out, false) => ({ s with out := out, channels := channels }, false)
      | (out, true) =>
        ({ s with out := { out with standby := false }, channels := channels }, true)
    else ({ s with out := out }, true)

/-- The accesses to `buffer` for one card, with `in_frames` frames left. -/
def cardAccesses (inFrames : ℕ) (c : Card) : List Access :=
  if s.out.multiResampler c then
    ⟨false, 0, inFrames * frameSize⟩ ::
      if x.echo then [⟨false, 0, x.consumed c inFrames * frameSize⟩] else []
  else
    (if x.echo then [⟨false, 0, inFrames * frameSize⟩] else []) ++
      if s.channels c = 2 then [⟨false, 0, inFrames * frameSize⟩]
      else downmix inFrames ++ [⟨false, 0, (inFrames * frameSize / 2 : ℕ)⟩]

/-- `in_frames` behind a card. -/
def framesLeft (inFrames : ℕ) (c : Card) : ℕ :=
  if s.out.plays c && s.out.multiResampler c then x.consumed c inFrames else inFrames

/-- The loop of `out_write`. -/
def loopAccesses : List Card → ℕ → List Access
  | [], _ => []
  | c :: cs, inFrames =>
    if s.out.plays c then
      s.cardAccesses x inFrames c ++
        if x.pcmWrite c then loopAccesses cs (s.framesLeft x inFrames c) else []
    else loopAccesses cs (s.framesLeft x inFrames c)

/-- `out_write`, with its accesses to the caller's memory. -/
def outWrite : State × List Access :=
  match s.prepare x with
  | (s, false) => (s, [])
  | (s, true) =>
    let loop := s.loopAccesses x OutputStream.State.cards.reverse (x.bytes / frameSize)
    let out := s.out.writeCards x.toWriteInput OutputStream.State.cards.reverse
    if s.capturing then
      ({ s with out := out, pcm := writePcmData s.pcm (load x.memory 0 captureSize) },
        writePcmReads s.pcm captureSize ++ ⟨true, 0, captureSize⟩ :: loop)
    else ({ s with out := out }, loop)

/-- A `ReadPcmData` that has what it waited for, or has timed out. -/
def readPcmData (getLen : ℕ) : State :=
  { s with pcm := s.pcm.readUpdate (min s.pcm.dataLen getLen) }

end State

inductive Act
  | outWrite (x : Write)
  | readPcmData (getLen : ℕ)
  /-- Another call, which leaves the ring alone. -/
  | other (out : OutputStream.State) (channels : Card → ℕ) (capturing : Bool)

def State.step (s : State) : Act → Option State
  | .outWrite x => some (s.outWrite x).1
  | .readPcmData getLen => some (s.readPcmData getLen)
  | .other out channels capturing => some ⟨out, channels, capturing, s.pcm⟩

/-! ## The property, and the condition -/

/-- What the ring holds is continued by `data`. -/
def Appends (p p' : PcmBufManager) (data : List UInt8) : Prop :=
  ∀ pending, RingInv p pending → RingInv p' (pending ++ data)

/-- A call that is to be captured: whole frames, for which the ring has room. -/
def State.Admits (s : State) (x : Write) : Prop :=
  s.capturing = true ∧ frameSize ∣ x.bytes ∧ (x.bytes : ℤ) ≤ s.pcm.bufValideLen

/-- A call that appends the caller's buffer to the ring, and stays inside it. -/
def Captured (a : Act) (s s' : State) : Prop :=
  match a with
  | .outWrite x => s.Admits x → Appends s.pcm s'.pcm (load x.memory 0 x.bytes) ∧
      ∀ a ∈ (s.outWrite x).2, a.Inside x.bytes
  | _ => True

/-- No card is converted to one channel with all the frames of the call: each one in the loop
without a resampler has two channels, or a resampler in front of it has left frames over. -/
def State.NoDownmix (s : State) (x : Write) : Prop :=
  ∀ front c back, OutputStream.State.cards.reverse = front ++ c :: back →
    (∀ d ∈ front, s.out.plays d = true → x.pcmWrite d = true) → s.out.plays c = true →
    s.out.multiResampler c = false → s.channels c ≠ 2 →
    front.foldl (s.framesLeft x) (x.bytes / frameSize) < x.bytes / frameSize

/-- A call writes as many bytes as the resampler's buffer has. -/
def CaptureOk (a : Act) (s : State) : Prop :=
  match a with
  | .outWrite x => s.Admits x →
      if (s.prepare x).2 then x.bytes = captureSize ∧ (s.prepare x).1.NoDownmix x else x.bytes = 0
  | _ => True

section Call

variable {s : State} {x : Write} {p : PcmBufManager} {pending data : List UInt8}

/-! ## The stream -/

lemma prepare_frame : (s.prepare x).1.pcm = s.pcm ∧ (s.prepare x).1.capturing = s.capturing := by
  unfold State.prepare
  simp only
  split_ifs
  · exact ⟨rfl, rfl⟩
  · exact ⟨rfl, rfl⟩
  · split
    · exact ⟨rfl, rfl⟩
    · exact ⟨rfl, rfl⟩
  · exact ⟨rfl, rfl⟩

/-- The stream is that of `OutputStream`. -/
lemma outWrite_out : (s.outWrite x).1.out = s.out.outWrite x.toWriteInput := by
  have henters : ∀ s' : State, s.prepare x = (s', true) → (s.outWrite x).1.out =
      s'.out.writeCards x.toWriteInput OutputStream.State.cards.reverse := by
    intro s' hs'
    rw [State.outWrite, hs']
    simp only
    split_ifs
    · rfl
    · rfl
  have hreturns : ∀ s' : State, s.prepare x = (s', false) → (s.outWrite x).1.out = s'.out := by
    intro s' hs'
    rw [State.outWrite, hs']
  cases hprep : s.prepare x with
  | mk s' enters =>
    have hs' := hprep
    unfold State.prepare at hs'
    unfold OutputStream.State.outWrite
    simp only at hs' ⊢
    split_ifs at hs' ⊢
    · obtain ⟨rfl, rfl⟩ := Prod.mk.inj hs'
      exact hreturns _ hprep
    · obtain ⟨rfl, rfl⟩ := Prod.mk.inj hs'
      exact hreturns _ hprep
    · generalize (s.out.updateRaw x.toWriteInput).startOutputStream x.toWriteInput = start
        at hs' ⊢
      obtain ⟨out, ok⟩ := start
      cases ok with
      | false =>
        obtain ⟨rfl, rfl⟩ := Prod.mk.inj hs'
        exact hreturns _ hprep
      | true =>
        obtain ⟨rfl, rfl⟩ := Prod.mk.inj hs'
        exact henters _ hprep
    · obtain ⟨rfl, rfl⟩ := Prod.mk.inj hs'
      exact henters _ hprep

/-! ## The ring -/

/-- The test lets all data through for which there is room. -/
lemma ringInv_writePcmData (hp : RingInv p pending) (hfit : (data.length : ℤ) ≤ p.bufValideLen) :
    RingInv (writePcmData p data) (pending ++ data) := by
  obtain ⟨hring, hcopied⟩ := hp.writeCopy hfit
  have heq := writeCopy_eq p data
  rw [writePcmData, if_neg (by omega)]
  rw [heq] at hring hcopied ⊢
  exact hring.writeUpdate hfit hcopied

/-- Its reads are inside the data. -/
lemma writePcmReads_inside {inSize : ℕ} (hp : RingInv p pending) {a : Access}
    (ha : a ∈ writePcmReads p inSize) : a.Inside inSize := by
  unfold writePcmReads at ha
  split_ifs at ha with hfit
  · cases ha
  · obtain ⟨c, hc, rfl⟩ := List.mem_map.mp ha
    have hlen : ((List.replicate inSize (0 : UInt8)).length : ℤ) = inSize := by
      rw [List.length_replicate]
    rw [← hlen] at hc
    have hlen' : c.callerLen = inSize := by
      unfold PcmBufManager.writeCopies at hc
      split_ifs at hc
      · rcases List.mem_cons.mp hc with rfl | hc
        · exact hlen
        · obtain rfl := List.mem_singleton.mp hc
          exact hlen
      · obtain rfl := List.mem_singleton.mp hc
        exact hlen
    obtain ⟨-, -, -, h0, hle⟩ := hp.writeCopies (by rw [hlen]; omega) hc
    rw [hlen'] at hle
    exact ⟨h0, hle⟩

/-! ## The loop over the cards -/

lemma framesLeft_le {m : ℕ} (c : Card) : s.framesLeft x m c ≤ m := by
  unfold State.framesLeft
  split_ifs
  · exact x.consumed_le c m
  · exact Nat.le_refl m

/-- The last frame is made from the bytes behind it. -/
lemma downmix_inside_iff {n m : ℕ} :
    (∀ a ∈ downmix m, a.Inside n) ↔ m = 0 ∨ 4 * m + 2 ≤ n := by
  constructor
  · intro hall
    rcases Nat.eq_zero_or_pos m with hm | hm
    · exact Or.inl hm
    · have hlast : (⟨false, 4 * (m - 1 : ℕ) + 5, 1⟩ : Access) ∈ downmix m := by
        refine List.mem_flatMap.mpr ⟨m - 1, List.mem_range.mpr (by omega), ?_⟩
        simp
      have hle := (hall _ hlast).2
      simp only at hle
      exact Or.inr (by omega)
  · intro hm a ha
    obtain ⟨i, hi, ha⟩ := List.mem_flatMap.mp ha
    have hlt := List.mem_range.mp hi
    simp only [List.mem_cons, List.not_mem_nil, or_false] at ha
    rcases ha with rfl | rfl | rfl | rfl <;> refine ⟨?_, ?_⟩ <;> simp only <;> omega

/-- Whole frames of the buffer are inside. -/
lemma inside_frames {n m m' : ℕ} (hm : m * frameSize ≤ n) (hle : m' ≤ m) :
    (⟨false, 0, m' * frameSize⟩ : Access).Inside n := by
  have hsize : frameSize = 4 := rfl
  refine ⟨Int.le_refl 0, ?_⟩
  simp only [hsize] at hm ⊢
  omega

lemma cardAccesses_inside_iff {n m : ℕ} {c : Card} (hm : m * frameSize ≤ n) :
    (∀ a ∈ s.cardAccesses x m c, a.Inside n) ↔
      (s.out.multiResampler c = false → s.channels c ≠ 2 → m = 0 ∨ 4 * m + 2 ≤ n) := by
  have hread := inside_frames hm (Nat.le_refl m)
  have hecho : ∀ k ≤ m, ∀ a ∈ (if x.echo then [(⟨false, 0, k * frameSize⟩ : Access)] else []),
      a.Inside n := by
    intro k hk a ha
    split_ifs at ha
    · obtain rfl := List.mem_singleton.mp ha
      exact inside_frames hm hk
    · cases ha
  unfold State.cardAccesses
  cases hres : s.out.multiResampler c with
  | true =>
    simp only [if_true, List.forall_mem_cons, Bool.true_eq_false, false_imp_iff, iff_true]
    exact ⟨hread, hecho _ (x.consumed_le c m)⟩
  | false =>
    simp only [Bool.false_eq_true, if_false, List.forall_mem_append, true_imp_iff]
    by_cases hch : s.channels c = 2
    · rw [if_pos hch]
      simp only [List.forall_mem_singleton, hch, ne_eq, not_true_eq_false, false_imp_iff, iff_true]
      exact ⟨hecho m (Nat.le_refl m), hread⟩
    · rw [if_neg hch]
      simp only [List.forall_mem_append, List.forall_mem_singleton, ne_eq, hch,
        not_false_eq_true, true_imp_iff, downmix_inside_iff]
      have hhalf : (⟨false, 0, (m * frameSize / 2 : ℕ)⟩ : Access).Inside n := by
        refine ⟨Int.le_refl 0, ?_⟩
        simp only
        omega
      exact ⟨fun h => h.2.1, fun h => ⟨hecho m (Nat.le_refl m), h, hhalf⟩⟩

/-- The places of a list: the first one, and those of the rest. -/
lemma forall_cons_split {c : Card} {cs : List Card} {P : List Card → Card → Prop} :
    (∀ front d back, c :: cs = front ++ d :: back → P front d) ↔
      P [] c ∧ ∀ front d back, cs = front ++ d :: back → P (c :: front) d := by
  constructor
  · intro h
    exact ⟨h [] c cs rfl, fun front d back heq => h (c :: front) d back (by rw [heq]; rfl)⟩
  · rintro ⟨hhead, htail⟩ front d back heq
    cases front with
    | nil =>
      obtain ⟨rfl, -⟩ := List.cons.inj heq
      exact hhead
    | cons b front =>
      obtain ⟨rfl, hrest⟩ := List.cons.inj heq
      exact htail front d back hrest

/-- The loop over `cs` stays inside the buffer exactly if each conversion that it comes to does. -/
lemma loopAccesses_inside_iff {n : ℕ} (cs : List Card) : ∀ {m : ℕ}, m * frameSize ≤ n →
    ((∀ a ∈ s.loopAccesses x cs m, a.Inside n) ↔
      ∀ front c back, cs = front ++ c :: back →
        (∀ d ∈ front, s.out.plays d = true → x.pcmWrite d = true) → s.out.plays c = true →
        s.out.multiResampler c = false → s.channels c ≠ 2 →
        front.foldl (s.framesLeft x) m = 0 ∨ 4 * front.foldl (s.framesLeft x) m + 2 ≤ n) := by
  induction cs with
  | nil => simp [State.loopAccesses]
  | cons c cs ih =>
    intro m hm
    have hleft : s.framesLeft x m c * frameSize ≤ n :=
      Nat.le_trans (Nat.mul_le_mul_right _ (framesLeft_le c)) hm
    rw [forall_cons_split]
    simp only [State.loopAccesses, List.forall_mem_cons, List.foldl_cons, List.foldl_nil,
      List.not_mem_nil, false_imp_iff, implies_true, true_imp_iff]
    by_cases hplays : s.out.plays c = true
    · simp only [hplays, if_true, true_imp_iff, List.forall_mem_append]
      rw [cardAccesses_inside_iff hm]
      refine and_congr_right fun _ => ?_
      by_cases hwrite : x.pcmWrite c = true
      · simp only [hwrite, if_true, true_and]
        exact ih hleft
      · simp only [hwrite, Bool.false_eq_true, if_false, false_and, false_imp_iff, implies_true,
          iff_true]
        intro a ha
        cases ha
    · simp only [hplays, Bool.false_eq_true, if_false, false_imp_iff, true_and]
      exact ih hleft

/-! ## One call -/

/-- A ring that holds the same bytes as before is continued by nothing. -/
lemma appends_self_iff {memory : ℤ → UInt8} {n : ℕ} (hp : RingInv p pending) :
    Appends p p (load memory 0 n) ↔ n = 0 := by
  constructor
  · intro happ
    have hdata := hp.data
    have hdata' := (happ pending hp).data
    rw [List.length_append, length_load] at hdata'
    omega
  · rintro rfl
    have hnil : load memory 0 ((0 : ℕ) : ℤ) = [] := List.eq_nil_of_length_eq_zero (by simp)
    rw [hnil]
    intro held hheld
    rw [List.append_nil]
    exact hheld

/-- The loop stays inside a buffer of `captureSize` bytes. -/
lemma noDownmix_iff (hbytes : x.bytes = captureSize) :
    (∀ a ∈ s.loopAccesses x OutputStream.State.cards.reverse (x.bytes / frameSize),
      a.Inside x.bytes) ↔ s.NoDownmix x := by
  have hsize : captureSize = 21760 := rfl
  have hframe : frameSize = 4 := rfl
  rw [loopAccesses_inside_iff _ (Nat.div_mul_le_self _ _), State.NoDownmix]
  have hfits : ∀ m : ℕ, m = 0 ∨ 4 * m + 2 ≤ x.bytes ↔ m < x.bytes / frameSize := by
    intro m
    rw [hbytes, hsize, hframe]
    omega
  simp only [hfits]

/-- What the ring is after a call that comes to the copy. -/
lemma outWrite_pcm (hprep : (s.prepare x).2 = true) (hcap : s.capturing = true) :
    (s.outWrite x).1.pcm = writePcmData s.pcm (load x.memory 0 captureSize) ∧
      (s.outWrite x).2 = writePcmReads s.pcm captureSize ++ ⟨true, 0, captureSize⟩ ::
        (s.prepare x).1.loopAccesses x OutputStream.State.cards.reverse (x.bytes / frameSize) := by
  obtain ⟨hpcm, hcap'⟩ := @prepare_frame s x
  unfold State.outWrite
  cases hs' : s.prepare x with
  | mk s' enters =>
    rw [hs'] at hprep hpcm hcap'
    simp only at hprep hpcm hcap'
    rw [hcap] at hcap'
    subst hprep
    simp only [hcap', if_true, hpcm, and_self]

/-- Otherwise the ring is left alone. -/
lemma outWrite_pcm_other (h : ¬ ((s.prepare x).2 = true ∧ s.capturing = true)) :
    (s.outWrite x).1.pcm = s.pcm := by
  obtain ⟨hpcm, hcap'⟩ := @prepare_frame s x
  unfold State.outWrite
  cases hs' : s.prepare x with
  | mk s' enters =>
    rw [hs'] at h hpcm hcap'
    cases enters with
    | false => exact hpcm
    | true =>
      have hoff : ¬ s'.capturing = true := fun hc => h ⟨rfl, hcap'.symm.trans hc⟩
      simp only [if_neg hoff]
      exact hpcm

lemma outWrite_accesses_other (h : (s.prepare x).2 = false) : (s.outWrite x).2 = [] := by
  unfold State.outWrite
  cases hs' : s.prepare x with
  | mk s' enters =>
    rw [hs'] at h
    simp only at h
    rw [h]

/-- The exact condition for one call. -/
lemma captured_iff (hp : RingInv s.pcm pending) :
    Captured (.outWrite x) s (s.outWrite x).1 ↔ CaptureOk (.outWrite x) s := by
  unfold Captured CaptureOk
  refine imp_congr_right fun hadm => ?_
  obtain ⟨hcap, -, hroom⟩ := hadm
  cases hprep : (s.prepare x).2 with
  | false =>
    rw [outWrite_pcm_other (by simp [hprep]), outWrite_accesses_other hprep, appends_self_iff hp]
    simp
  | true =>
    obtain ⟨hpcm, hacc⟩ := outWrite_pcm hprep hcap
    have hlen : (load x.memory 0 captureSize).length = captureSize := by simp
    rw [hpcm, hacc, if_pos rfl]
    simp only [List.forall_mem_append, List.forall_mem_cons]
    constructor
    · rintro ⟨happ, -, hmute, hloop⟩
      have hle : captureSize ≤ x.bytes := by
        have hmute := hmute.2
        simp only at hmute
        omega
      -- there is room for the bytes that are copied, so the ring tells their number
      have hdata := (happ pending hp).data
      have hfit : ((load x.memory 0 captureSize).length : ℤ) ≤ s.pcm.bufValideLen := by
        rw [hlen]
        omega
      have hdata' := (ringInv_writePcmData hp hfit).data
      rw [List.length_append, length_load] at hdata
      rw [List.length_append, hlen] at hdata'
      have hbytes : x.bytes = captureSize := by omega
      exact ⟨hbytes, (noDownmix_iff hbytes).mp hloop⟩
    · rintro ⟨hbytes, hmix⟩
      refine ⟨fun held hheld => ?_, fun a ha => ?_, ?_, (noDownmix_iff hbytes).mpr hmix⟩
      · rw [hbytes] at hroom ⊢
        exact ringInv_writePcmData hheld (by rw [hlen]; exact hroom)
      · rw [hbytes]
        exact writePcmReads_inside hp ha
      · rw [hbytes]
        exact ⟨Int.le_refl 0, by simp⟩

/-- The ring stays a ring, whatever is called. -/
lemma ringInv_step {s' : State} {a : Act} (hp : RingInv s.pcm pending) (hstep : s.step a = some s') :
    ∃ pending', RingInv s'.pcm pending' := by
  cases a with
  | outWrite x =>
    obtain rfl := Option.some.inj hstep
    by_cases hwrites : (s.prepare x).2 = true ∧ s.capturing = true
    · rw [(outWrite_pcm hwrites.1 hwrites.2).1]
      by_cases hfit : s.pcm.bufValideLen < (load x.memory 0 captureSize).length
      · rw [writePcmData, if_pos hfit]
        exact ⟨pending, hp⟩
      · exact ⟨_, ringInv_writePcmData hp (Int.not_lt.mp hfit)⟩
    · rw [outWrite_pcm_other hwrites]
      exact ⟨pending, hp⟩
  | readPcmData getLen =>
    obtain rfl := Option.some.inj hstep
    have hdata := hp.data
    exact ⟨_, hp.readUpdate ⟨by omega, by omega⟩⟩
  | other out channels capturing =>
    obtain rfl := Option.some.inj hstep
    exact ⟨pending, hp⟩

end Call

/-! ## Sequences of calls -/

/-- The call at the head of a sequence is to be captured. -/
def ToCapture (a : Act) (s : State) : Prop :=
  match a with
  | .outWrite x => s.Admits x
  | _ => True

/-- After captured calls, the ring goes on with all their buffers. -/
lemma captured_concat (xs : List Write) : ∀ {s : State},
    Meets State.step ToCapture s (xs.map .outWrite) →
    Along State.step (fun _ => True) Captured s (xs.map .outWrite) →
    Appends s.pcm (xs.foldl (fun s x => (s.outWrite x).1) s).pcm
      (xs.flatMap fun x => load x.memory 0 x.bytes) := by
  induction xs with
  | nil =>
    intro s _ _ pending hp
    rw [List.flatMap_nil, List.append_nil]
    exact hp
  | cons x xs ih =>
    rintro s ⟨-, hto⟩ ⟨-, hcap⟩ pending hp
    obtain ⟨hadm, hto⟩ := hto _ rfl
    obtain ⟨hfirst, hcap⟩ := hcap _ rfl
    have hrest := ih hto hcap _ ((hfirst hadm).1 pending hp)
    rw [List.flatMap_cons, ← List.append_assoc]
    exact hrest

/-- **What the ring gets.**  From a fresh ring on, along any sequence of calls, every `out_write`
that is to be captured appends the caller's buffer to the ring and stays inside it, if and only if
every such call has exactly as many bytes as the resampler's buffer, and converts no full buffer to
one channel.  Behind calls that are captured the ring has all their buffers, and the stream of a
call is that of `OutputStream`. -/
theorem capture_iff (memory : ℤ → UInt8) (s : State) (hs : s.pcm = (opened memory).pcm)
    (acts : List Act) :
    (Along State.step (fun _ => True) Captured s acts ↔ Meets State.step CaptureOk s acts) ∧
      (∀ xs : List Write, Meets State.step ToCapture s (xs.map .outWrite) →
        Along State.step (fun _ => True) Captured s (xs.map .outWrite) →
        Appends s.pcm (xs.foldl (fun s x => (s.outWrite x).1) s).pcm
          (xs.flatMap fun x => load x.memory 0 x.bytes)) ∧
      ∀ x : Write, (s.outWrite x).1.out = s.out.outWrite x.toWriteInput := by
  refine ⟨?_, fun xs hto hcap => captured_concat xs hto hcap, fun x => outWrite_out⟩
  have hinv : ∃ pending, RingInv s.pcm pending := by
    rw [hs]
    exact ⟨[], (inv_opened memory).ring⟩
  have hone : ∀ {a : Act} {s s' : State} {pending : List UInt8}, RingInv s.pcm pending →
      s.step a = some s' → (Captured a s s' ↔ CaptureOk a s) := by
    intro a s s' pending hp hstep
    cases a with
    | outWrite x =>
      obtain rfl := Option.some.inj hstep
      exact captured_iff hp
    | readPcmData getLen => exact Iff.rfl
    | other out channels capturing => exact Iff.rfl
  refine along_iff_meets (fun {s} (_ : ∃ pending, RingInv s.pcm pending) => trivial) ?_ ?_ acts hinv
  · rintro a s s' ⟨pending, hp⟩ hok hstep
    exact ⟨ringInv_step hp hstep, (hone hp hstep).mpr hok⟩
  · rintro a s s' ⟨pending, hp⟩ hstep hcap -
    exact (hone hp hstep).mp hcap

/-- A stream that plays to two cards, while a capture has just been opened. -/
def playing : State :=
  ⟨{ codecAndHdmi with standby := false }, fun _ => 2, true, (opened fun _ => 0).pcm⟩

/-- A write of `n` bytes. -/
def plain (n : ℕ) : Write :=
  { plainWrite (fun _ => true) with
    memory := fun _ => 1, bytes := n, usbChannels := fun _ => none, consumed := fun _ m => m
    consumed_le := fun _ m => Nat.le_refl m, echo := false }

lemma prepare_playing (n : ℕ) : (playing.prepare (plain n)).2 = true ∧
    (playing.prepare (plain n)).1.channels = fun _ => 2 := ⟨rfl, rfl⟩

/-- A write of the size of the resampler's buffer. -/
theorem capture_iff_full : Along State.step (fun _ => True) Captured playing
    [.outWrite (plain captureSize), .readPcmData captureSize] := by
  refine (capture_iff (fun _ => 0) playing rfl _).1.mpr ⟨trivial, fun s' _ => ⟨fun _ => ?_, ?_⟩⟩
  · obtain ⟨henters, hchannels⟩ := prepare_playing captureSize
    rw [if_pos henters]
    refine ⟨rfl, fun front c back _ _ _ _ hone => absurd ?_ hone⟩
    rw [hchannels]
  · exact ⟨trivial, fun _ _ => ⟨trivial, trivial⟩⟩

/-- A write of the size that `out_get_buffer_size` asks for: twice as many bytes are copied, and
set to 0. -/
theorem capture_leaves_buffer :
    ¬ ∀ (memory : ℤ → UInt8) (s : State), s.pcm = (opened memory).pcm → ∀ acts : List Act,
      Along State.step (fun _ => True) Captured s acts := by
  intro hall
  have hfirst := hall (fun _ => 0) playing rfl [.outWrite (plain 10880)]
  have hcap := (hfirst.2 _ rfl).1
  have hring : RingInv playing.pcm [] := (inv_opened fun _ => 0).ring
  have hok := (captured_iff hring).mp hcap ⟨rfl, by decide, by decide⟩
  rw [if_pos (prepare_playing 10880).1] at hok
  exact absurd hok.1 (by decide)

end Softwinner.Audio.Capture

import Mathlib.Algebra.Group.Int.Defs
import Mathlib.Algebra.Group.Nat.Defs
import Softwinner.Framework.Loop
import Softwinner.Framework.Ring
import Softwinner.Framework.Runs

/-!
# The memory of a pcm

`pcm_mmap_begin` and `pcm_mmap_commit` of `libcodec_audio/pcm.c`: the application and the hardware
share the memory of the pcm, and each has a pointer that counts frames up to `boundary`, which
`pcm_open` computes.

On playback, the frames that may be written are taken for the whole memory when the application has
gone over the boundary, the hardware has not, and the memory is full: the difference of the pointers
is then `boundary` itself, and `pcm_mmap_playback_avail` subtracts `boundary` from more than that
only.  What has not been played is written over.  `playback_iff` says that this is all that goes
wrong, `exists_written_over` that it does in some run, and `capture_intact` that nothing goes wrong
on capture.
-/

namespace Softwinner.Audio.PcmMmap

open Framework

/-! ## Numbers -/

/-- `long` and `int` have 32 bits. -/
def longMax : ℤ := 2 ^ 31 - 1

/-- Conversion to `int`. -/
def toInt (x : ℤ) : ℤ := x.bmod (2 ^ 32)

/-- Conversion to `unsigned int`. -/
def toUInt (x : ℤ) : ℤ := x % 2 ^ 32

/-- The loop of `pcm_open`. -/
def boundaryTurn (bufferSize boundary : ℤ) : Option ℤ :=
  if toUInt (boundary * 2) ≤ toUInt (longMax - bufferSize) then some (toUInt (boundary * 2))
  else none

/-- `pcm->boundary`, if the fuel is enough. -/
def boundary (bufferSize : ℤ) (fuel : ℕ) : Option ℤ :=
  Loop.run (boundaryTurn bufferSize) fuel bufferSize

/-! ## State -/

/-- The memory and the two pointers.  `given` is what has been put into the memory, by the
application or by the hardware, and `taken` what the other one has had of it. -/
structure State (α : Type) where
  memory : ℤ → α
  hwPtr : ℤ
  applPtr : ℤ
  given : List α
  taken : List α

/-- After the pcm has been prepared. -/
def initial {α : Type} (memory : ℤ → α) : State α := ⟨memory, 0, 0, [], []⟩

section Pcm

variable {α : Type} (bufferSize boundary : ℤ) (s : State α)

def mmapPlaybackAvail : ℤ :=
  let avail := toInt (s.hwPtr + bufferSize - s.applPtr)
  if avail < 0 then toInt (avail + boundary)
  else if toInt boundary < avail then toInt (avail - boundary)
  else avail

def mmapCaptureAvail : ℤ :=
  let avail := toInt (s.hwPtr - s.applPtr)
  if avail < 0 then toInt (avail + boundary) else avail

/-- `pcm_mmap_appl_forward`. -/
def mmapApplForward (frames : ℤ) : ℤ :=
  let applPtr := toUInt (s.applPtr + frames)
  if boundary < applPtr then toUInt (applPtr - boundary) else applPtr

/-- `pcm_mmap_begin`: the offset, and the frames. -/
def mmapBegin (avail frames : ℤ) : ℤ × ℤ :=
  let offset := s.applPtr % bufferSize
  let avail := min (toUInt avail) bufferSize
  let continuous := bufferSize - offset
  (offset, min (min frames avail) continuous)

/-! ## Steps -/

/-- The application writes, and the hardware plays. -/
inductive PlaybackAct (α : Type)
  | write (xs : List α)
  | play (frames : ℕ)

/-- The hardware captures, and the application reads. -/
inductive CaptureAct (α : Type)
  | capture (xs : List α)
  | read (frames : ℕ)

/-- Frames are written as far as they may be, and committed. -/
def write (xs : List α) : State α :=
  let (offset, frames) :=
    mmapBegin bufferSize s (mmapPlaybackAvail bufferSize boundary s) xs.length
  let xs := xs.take frames.toNat
  { s with
    memory := Ring.store s.memory offset xs, applPtr := mmapApplForward boundary s frames
    given := s.given ++ xs }

/-- The hardware stops where there is nothing to play. -/
def playback (s : State α) : PlaybackAct α → Option (State α)
  | .write xs => some (write bufferSize boundary s xs)
  | .play frames =>
    if s.taken.length + frames ≤ s.given.length then
      some { s with
        hwPtr := (s.hwPtr + frames) % boundary
        taken := s.taken ++ Ring.copyOut s.memory bufferSize (s.hwPtr % bufferSize) frames }
    else none

def read (frames : ℕ) : State α :=
  let (offset, frames) := mmapBegin bufferSize s (mmapCaptureAvail boundary s) frames
  { s with
    applPtr := mmapApplForward boundary s frames
    taken := s.taken ++ Ring.load s.memory offset frames }

/-- The hardware stops where there is no room. -/
def capture (s : State α) : CaptureAct α → Option (State α)
  | .capture xs =>
    if (s.given.length : ℤ) + xs.length ≤ s.taken.length + bufferSize then
      some { s with
        memory := Ring.copyIn s.memory bufferSize (s.hwPtr % bufferSize) xs
        hwPtr := (s.hwPtr + xs.length) % boundary, given := s.given ++ xs }
    else none
  | .read frames => some (read bufferSize boundary s frames)

/-! ## The property, and the condition -/

/-- What has been given and not been taken is in the memory, from the pointer on. -/
structure Intact (ptr : ℤ) : Prop where
  room : (s.given.length : ℤ) ≤ s.taken.length + bufferSize
  held : s.given = s.taken ++ Ring.copyOut s.memory bufferSize (ptr % bufferSize)
    (s.given.length - s.taken.length)

/-- The application has gone over the boundary and the hardware has not, and the memory is full. -/
def Wrapped : Prop := s.hwPtr + bufferSize = s.applPtr + boundary

instance : Decidable (Wrapped bufferSize boundary s) :=
  inferInstanceAs (Decidable (s.hwPtr + bufferSize = s.applPtr + boundary))

/-- Nothing is written then. -/
def PlaybackOk : PlaybackAct α → State α → Prop
  | .write xs, s => Wrapped bufferSize boundary s → xs = []
  | .play _, _ => True

instance : ∀ (c : PlaybackAct α) (s : State α), Decidable (PlaybackOk bufferSize boundary c s)
  | .write xs, s => inferInstanceAs (Decidable (Wrapped bufferSize boundary s → xs = []))
  | .play _, _ => inferInstanceAs (Decidable True)

end Pcm

/-! ## The boundary -/

section Boundary

variable {n b : ℤ} {fuel : ℕ}

/-- What is needed of the boundary. -/
structure Bounds (n b : ℤ) : Prop where
  pos : 0 < n
  dvd : n ∣ b
  twice : 2 * n ≤ b
  le : b + n ≤ longMax

lemma boundaryTurn_eq (hn : 0 < n) (hle : n ≤ longMax) (hb : 0 < b) (hbound : b ≤ longMax) :
    boundaryTurn n b = if b * 2 ≤ longMax - n then some (b * 2) else none := by
  unfold longMax at hle hbound
  unfold boundaryTurn toUInt longMax
  rw [Int.emod_eq_of_lt (by omega) (by omega), Int.emod_eq_of_lt (by omega) (by omega)]

/-- The boundary is made of whole buffers. -/
lemma bounds_of_boundary (hn : 0 < n) (hsmall : 3 * n ≤ longMax)
    (hopen : boundary n fuel = some b) : Bounds n b := by
  have hmax : n ≤ longMax := by omega
  have hkeeps : ∀ x y, (0 < x ∧ n ∣ x ∧ (x = n ∨ 2 * n ≤ x) ∧ x + n ≤ longMax) →
      boundaryTurn n x = some y → 0 < y ∧ n ∣ y ∧ (y = n ∨ 2 * n ≤ y) ∧ y + n ≤ longMax := by
    rintro x y ⟨hx, hdvd, hor, hle⟩ hturn
    rw [boundaryTurn_eq hn hmax hx (by omega)] at hturn
    split_ifs at hturn with htest
    obtain rfl := Option.some.inj hturn
    exact ⟨by omega, Int.dvd_trans hdvd (Int.dvd_mul_right x 2), .inr (by omega), by omega⟩
  have hstart : 0 < n ∧ n ∣ n ∧ (n = n ∨ 2 * n ≤ n) ∧ n + n ≤ longMax :=
    ⟨hn, Int.dvd_refl n, .inl rfl, by omega⟩
  obtain ⟨hb, hdvd, hor, hle⟩ := Loop.run_keeps hkeeps hstart hopen
  have hstops := Loop.run_stops hopen
  rw [boundaryTurn_eq hn hmax hb (by omega)] at hstops
  have htest : ¬ b * 2 ≤ longMax - n := by
    intro htest
    rw [if_pos htest] at hstops
    cases hstops
  refine ⟨hn, hdvd, ?_, hle⟩
  rcases hor with rfl | hor
  · omega
  · exact hor

/-- The loop ends. -/
lemma exists_boundary (hn : 0 < n) (hle : n ≤ longMax) : ∃ fuel b, boundary n fuel = some b := by
  have hturn : ∀ x y, (0 < x ∧ x ≤ longMax) → boundaryTurn n x = some y →
      (0 < y ∧ y ≤ longMax) ∧ (longMax - y).toNat < (longMax - x).toNat := by
    rintro x y ⟨hx, hxle⟩ hturn
    rw [boundaryTurn_eq hn hle hx hxle] at hturn
    split_ifs at hturn with htest
    obtain rfl := Option.some.inj hturn
    exact ⟨by omega, by omega⟩
  obtain ⟨b, hrun, -⟩ := Loop.run_ends (s := n) hturn ⟨hn, hle⟩ (Nat.lt_succ_self _)
  exact ⟨_, b, hrun⟩

end Boundary

/-! ## Pointers -/

section Pointers

variable {α : Type} {n b d x g t : ℤ} {s : State α}

lemma toInt_eq (hle : -(2 ^ 31) ≤ x) (hlt : x < 2 ^ 31) : toInt x = x :=
  Int.bmod_eq_of_le (by omega) (by omega)

lemma toUInt_eq (hle : 0 ≤ x) (hlt : x < 2 ^ 32) : toUInt x = x := Int.emod_eq_of_lt hle hlt

/-- The pointer of the application, behind `g` frames; it may be the boundary. -/
structure ApplAt (b g a : ℤ) : Prop where
  nonneg : 0 ≤ a
  le : a ≤ b
  dvd : b ∣ g - a

lemma ApplAt.cases {a : ℤ} (h : ApplAt b g a) (hb : 0 < b) :
    a = g % b ∨ a = b ∧ g % b = 0 := by
  have hsame : g % b = a % b := Int.emod_eq_emod_iff_emod_sub_eq_zero.mpr
    (Int.emod_eq_zero_of_dvd h.dvd)
  rcases Int.lt_or_eq_of_le h.le with hlt | rfl
  · exact .inl ((hsame.trans (Int.emod_eq_of_lt h.nonneg hlt)).symm)
  · exact .inr ⟨rfl, hsame.trans Int.emod_self⟩

/-- Its place in the memory. -/
lemma ApplAt.offset {a : ℤ} (h : ApplAt b g a) (hb : Bounds n b) : a % n = g % n :=
  (Int.emod_eq_emod_iff_emod_sub_eq_zero.mpr
    (Int.emod_eq_zero_of_dvd (Int.dvd_trans hb.dvd h.dvd))).symm

lemma applForward_at (h : ApplAt b g s.applPtr) (hb : Bounds n b) (hd : 0 ≤ d ∧ d ≤ n) :
    ApplAt b (g + d) (mmapApplForward b s d) := by
  obtain ⟨hnonneg, hle, hdvd⟩ := h
  have hmax := hb.le
  have hpos := hb.pos
  have htwice := hb.twice
  unfold longMax at hmax
  unfold mmapApplForward
  rw [toUInt_eq (by omega) (by omega)]
  dsimp only
  split_ifs with hover
  · rw [toUInt_eq (by omega) (by omega)]
    refine ⟨by omega, by omega, ?_⟩
    rw [show g + d - (s.applPtr + d - b) = g - s.applPtr + b by omega]
    exact Int.dvd_add hdvd (Int.dvd_refl b)
  · refine ⟨by omega, by omega, ?_⟩
    rw [show g + d - (s.applPtr + d) = g - s.applPtr by omega]
    exact hdvd

/-- The frames that may be written, unless the memory is full behind the boundary. -/
lemma playbackAvail_eq (hb : Bounds n b) (hhw : s.hwPtr = t % b) (happl : ApplAt b g s.applPtr)
    (hroom : t ≤ g ∧ g ≤ t + n) :
    (Wrapped n b s → mmapPlaybackAvail n b s = b ∧ g = t + n) ∧
      (¬ Wrapped n b s → mmapPlaybackAvail n b s = n - (g - t)) := by
  have hpos := hb.pos
  have htwice := hb.twice
  have hmax := hb.le
  have hbpos : 0 < b := by omega
  have hnonneg := Int.emod_nonneg t (by omega : b ≠ 0)
  have hlt := Int.emod_lt_of_pos t hbpos
  have hcases := happl.cases hbpos
  have hround := Ring.emod_add_cases (a := t) (d := g - t) hbpos (by omega)
  rw [show t + (g - t) = g by omega] at hround
  unfold longMax at hmax
  unfold mmapPlaybackAvail Wrapped
  rw [hhw]
  generalize t % b = hw at *
  generalize g % b = gb at *
  rw [toInt_eq (by omega) (by omega), toInt_eq (x := b) (by omega) (by omega)]
  dsimp only
  split_ifs
  · rw [toInt_eq (by omega) (by omega)]
    omega
  · rw [toInt_eq (by omega) (by omega)]
    omega
  · omega

lemma captureAvail_eq (hb : Bounds n b) (hhw : s.hwPtr = g % b) (happl : ApplAt b t s.applPtr)
    (hroom : t ≤ g ∧ g ≤ t + n) : mmapCaptureAvail b s = g - t := by
  have hpos := hb.pos
  have htwice := hb.twice
  have hmax := hb.le
  have hbpos : 0 < b := by omega
  have hnonneg := Int.emod_nonneg g (by omega : b ≠ 0)
  have hlt := Int.emod_lt_of_pos g hbpos
  have hnonneg' := Int.emod_nonneg t (by omega : b ≠ 0)
  have hlt' := Int.emod_lt_of_pos t hbpos
  have hcases := happl.cases hbpos
  have hround := Ring.emod_add_cases (a := t) (d := g - t) hbpos (by omega)
  rw [show t + (g - t) = g by omega] at hround
  unfold longMax at hmax
  unfold mmapCaptureAvail
  rw [hhw]
  generalize t % b = tb at *
  generalize g % b = hw at *
  rw [toInt_eq (by omega) (by omega)]
  dsimp only
  split_ifs
  · rw [toInt_eq (by omega) (by omega)]
    omega
  · omega

end Pointers

/-! ## The memory -/

section Memory

variable {α : Type} {n b hw a ptr : ℤ} {s : State α} {m : ℤ → α} {xs rest : List α} {d : ℕ}

/-- What is pending fits into the memory and is there. -/
structure Shared (n : ℤ) (s : State α) (rest : List α) : Prop where
  given : s.given = s.taken ++ rest
  fits : (rest.length : ℤ) ≤ n
  holds : Ring.Holds s.memory n ((s.taken.length : ℤ) % n) rest

lemma Shared.length (h : Shared n s rest) :
    (s.given.length : ℤ) = s.taken.length + rest.length := by
  rw [h.given, List.length_append]
  omega

/-- From the pointer on, as well. -/
lemma Shared.copyOut (h : Shared n s rest) (hn : 0 < n) (hptr : ptr % n = (s.taken.length : ℤ) % n)
    (hd : d ≤ rest.length) : Ring.copyOut s.memory n (ptr % n) d = rest.take d := by
  have hr := Int.emod_nonneg (s.taken.length : ℤ) (by omega : n ≠ 0)
  have hlt := Int.emod_lt_of_pos (s.taken.length : ℤ) hn
  rw [hptr, h.holds.copyOut ⟨hr, hlt⟩ (by omega), Int.toNat_natCast]

lemma Shared.intact (h : Shared n s rest) (hn : 0 < n)
    (hptr : ptr % n = (s.taken.length : ℤ) % n) : Intact n s ptr := by
  have hlength := h.length
  have hfits := h.fits
  refine ⟨by omega, ?_⟩
  rw [show (s.given.length : ℤ) - s.taken.length = rest.length by omega,
    h.copyOut hn hptr (Nat.le_refl _), List.take_length]
  exact h.given

/-- More is put behind it. -/
lemma Shared.give (h : Shared n s rest) (hn : 0 < n) (hfit : (rest.length : ℤ) + xs.length ≤ n)
    (hm : m = Ring.copyIn s.memory n ((s.given.length : ℤ) % n) xs) :
    Shared n ⟨m, hw, a, s.given ++ xs, s.taken⟩ (rest ++ xs) := by
  have hr := Int.emod_nonneg (s.taken.length : ℤ) (by omega : n ≠ 0)
  have hlt := Int.emod_lt_of_pos (s.taken.length : ℤ) hn
  have hw := Int.emod_nonneg (s.given.length : ℤ) (by omega : n ≠ 0)
  have hwlt := Int.emod_lt_of_pos (s.given.length : ℤ) hn
  have hlength := h.length
  have hbehind : Ring.Behind n ((s.taken.length : ℤ) % n) rest ((s.given.length : ℤ) % n) :=
    Ring.behind_emod hn (by omega) (by omega)
  refine ⟨by rw [h.given, List.append_assoc], by rw [List.length_append]; omega, ?_⟩
  subst hm
  exact (h.holds.copyIn ⟨hr, hlt⟩ ⟨hw, by omega⟩ hbehind hfit).append
    (Ring.holds_copyIn ⟨hw, by omega⟩ (by omega)) ⟨hr, hlt⟩ ⟨hw, by omega⟩ hbehind hfit

/-- The first of it is taken. -/
lemma Shared.take (h : Shared n s rest) (hn : 0 < n) (hd : d ≤ rest.length) :
    Shared n ⟨s.memory, hw, a, s.given, s.taken ++ rest.take d⟩ (rest.drop d) := by
  have hr := Int.emod_nonneg (s.taken.length : ℤ) (by omega : n ≠ 0)
  have hlt := Int.emod_lt_of_pos (s.taken.length : ℤ) hn
  have hfits := h.fits
  have htaken : ((s.taken ++ rest.take d).length : ℤ) = s.taken.length + d := by
    rw [List.length_append, List.length_take, Nat.min_eq_left hd]
    omega
  have hr' := Int.emod_nonneg ((s.taken.length : ℤ) + d) (by omega : n ≠ 0)
  have hlt' := Int.emod_lt_of_pos ((s.taken.length : ℤ) + d) hn
  refine ⟨?_, by rw [List.length_drop]; omega, ?_⟩
  · rw [h.given, List.append_assoc, List.take_append_drop]
  · rw [htaken]
    exact h.holds.drop hd ⟨hr, hlt⟩ ⟨hr', hlt'⟩ hfits (Ring.emod_add_cases hn (by omega))

lemma copyIn_eq_store (hend : hw + xs.length ≤ n) : Ring.copyIn m n hw xs = Ring.store m hw xs :=
  if_neg (Int.not_lt.mpr hend)

end Memory

/-! ## Playback -/

section Playback

variable {α : Type} {n b : ℤ} {s t : State α} {rest : List α}

/-- What holds as long as nothing is written over. -/
structure PlaybackInv (n b : ℤ) (s : State α) (rest : List α) : Prop where
  shared : Shared n s rest
  hw : s.hwPtr = (s.taken.length : ℤ) % b
  appl : ApplAt b s.given.length s.applPtr

lemma PlaybackInv.intact (h : PlaybackInv n b s rest) (hb : Bounds n b) : Intact n s s.hwPtr := by
  refine h.shared.intact hb.pos ?_
  rw [h.hw]
  exact Int.emod_emod_of_dvd _ hb.dvd

/-- The frames that are written. -/
lemma PlaybackInv.begin (h : PlaybackInv n b s rest) (hb : Bounds n b) (len : ℤ) :
    (Wrapped n b s → mmapBegin n s (mmapPlaybackAvail n b s) len =
        ((s.given.length : ℤ) % n, min (min len n) (n - (s.given.length : ℤ) % n)) ∧
      (rest.length : ℤ) = n) ∧
    (¬ Wrapped n b s → mmapBegin n s (mmapPlaybackAvail n b s) len =
      ((s.given.length : ℤ) % n,
        min (min len (n - rest.length)) (n - (s.given.length : ℤ) % n))) := by
  have hlength := h.shared.length
  have hfits := h.shared.fits
  have hmax := hb.le
  have hpos := hb.pos
  have htwice := hb.twice
  unfold longMax at hmax
  obtain ⟨hwrapped, hnot⟩ := playbackAvail_eq hb h.hw h.appl (by omega)
  unfold mmapBegin
  rw [h.appl.offset hb]
  constructor
  · intro hw
    obtain ⟨havail, hfull⟩ := hwrapped hw
    rw [havail, toUInt_eq (by omega) (by omega)]
    refine ⟨?_, by omega⟩
    dsimp only
    rw [show min b n = n by omega]
  · intro hw
    rw [hnot hw, toUInt_eq (by omega) (by omega)]
    dsimp only
    rw [show min (n - ((s.given.length : ℤ) - s.taken.length)) n = n - rest.length by omega]

/-- The frames that fit are behind those pending. -/
lemma PlaybackInv.write_of_begin (h : PlaybackInv n b s rest) (hb : Bounds n b) {xs : List α}
    {f : ℤ}
    (hbegin : mmapBegin n s (mmapPlaybackAvail n b s) xs.length = ((s.given.length : ℤ) % n, f))
    (hf : 0 ≤ f ∧ f ≤ xs.length) (hroom : f ≤ n - rest.length)
    (hend : (s.given.length : ℤ) % n + f ≤ n) :
    ∃ m, write n b s xs =
        ⟨m, s.hwPtr, mmapApplForward b s f, s.given ++ xs.take f.toNat, s.taken⟩ ∧
      PlaybackInv n b (write n b s xs) (rest ++ xs.take f.toNat) := by
  have hpos := hb.pos
  have htake : ((xs.take f.toNat).length : ℤ) = f := by
    rw [List.length_take]
    omega
  unfold PcmMmap.write
  rw [hbegin]
  refine ⟨_, rfl, h.shared.give hpos (by omega) ?_, h.hw, ?_⟩
  · exact (copyIn_eq_store (by omega)).symm
  · have happl := applForward_at h.appl hb (d := f) (by omega)
    rw [List.length_append, Int.natCast_add, htake]
    exact happl

/-- A write that has room. -/
lemma PlaybackInv.write (h : PlaybackInv n b s rest) (hb : Bounds n b) {xs : List α}
    (hok : PlaybackOk n b (.write xs) s) : ∃ rest', PlaybackInv n b (write n b s xs) rest' := by
  have hfits := h.shared.fits
  have hpos := hb.pos
  have hoff := Int.emod_nonneg (s.given.length : ℤ) (by omega : n ≠ 0)
  have hofflt := Int.emod_lt_of_pos (s.given.length : ℤ) hpos
  obtain ⟨hwrapped, hnot⟩ := h.begin hb xs.length
  by_cases hw : Wrapped n b s
  · have hnil : (xs.length : ℤ) = 0 := by rw [hok hw, List.length_nil, Int.natCast_zero]
    obtain ⟨_, -, hinv⟩ := h.write_of_begin hb (hwrapped hw).1 (by omega) (by omega) (by omega)
    exact ⟨_, hinv⟩
  · obtain ⟨_, -, hinv⟩ := h.write_of_begin hb (hnot hw) (by omega) (by omega) (by omega)
    exact ⟨_, hinv⟩

/-- Frames that fit in one part are written whole. -/
lemma PlaybackInv.write_all (h : PlaybackInv n b s rest) (hb : Bounds n b) (xs : List α)
    (hw : ¬ Wrapped n b s) (hroom : (rest.length : ℤ) + xs.length ≤ n)
    (hend : (s.given.length : ℤ) % n + xs.length ≤ n) :
    ∃ m, PcmMmap.write n b s xs =
        ⟨m, s.hwPtr, mmapApplForward b s xs.length, s.given ++ xs, s.taken⟩ ∧
      PlaybackInv n b (PcmMmap.write n b s xs) (rest ++ xs) := by
  have hbegin := (h.begin hb xs.length).2 hw
  rw [show min (min (xs.length : ℤ) (n - rest.length)) (n - (s.given.length : ℤ) % n) = xs.length
    by omega] at hbegin
  have hall := h.write_of_begin hb hbegin (by omega) (by omega) (by omega)
  rwa [Int.toNat_natCast, List.take_length] at hall

/-- A write behind the boundary while the memory is full. -/
lemma PlaybackInv.write_over (h : PlaybackInv n b s rest) (hb : Bounds n b) {xs : List α}
    (hno : ¬ PlaybackOk n b (.write xs) s) :
    ¬ Intact n (PcmMmap.write n b s xs) (PcmMmap.write n b s xs).hwPtr := by
  have hlength := h.shared.length
  have hpos := hb.pos
  have hofflt := Int.emod_lt_of_pos (s.given.length : ℤ) hpos
  simp only [PlaybackOk, not_forall] at hno
  obtain ⟨hw, hne⟩ := hno
  obtain ⟨hbegin, hfull⟩ := (h.begin hb xs.length).1 hw
  have hlen := List.length_pos_iff.mpr hne
  intro hintact
  have hroom := hintact.room
  unfold PcmMmap.write at hroom
  rw [hbegin] at hroom
  simp only [List.length_append, List.length_take] at hroom
  omega

lemma PlaybackInv.play (h : PlaybackInv n b s rest) (hb : Bounds n b) {frames : ℕ}
    (hle : s.taken.length + frames ≤ s.given.length) :
    PlaybackInv n b
      { s with
        hwPtr := (s.hwPtr + frames) % b
        taken := s.taken ++ Ring.copyOut s.memory n (s.hwPtr % n) frames } (rest.drop frames) := by
  have hlength := h.shared.length
  have hle' : frames ≤ rest.length := by omega
  have hptr : s.hwPtr % n = (s.taken.length : ℤ) % n := by
    rw [h.hw]
    exact Int.emod_emod_of_dvd _ hb.dvd
  rw [h.shared.copyOut hb.pos hptr hle']
  refine ⟨h.shared.take hb.pos hle', ?_, h.appl⟩
  dsimp only
  rw [h.hw, List.length_append, List.length_take, Nat.min_eq_left hle', Int.emod_add_emod,
    Int.natCast_add]

/-- A step keeps what is pending exactly if it meets the condition. -/
lemma playback_step (h : PlaybackInv n b s rest) (hb : Bounds n b) {c : PlaybackAct α}
    (hstep : playback n b s c = some t) :
    (PlaybackOk n b c s → ∃ rest', PlaybackInv n b t rest') ∧
      (Intact n t t.hwPtr → PlaybackOk n b c s) := by
  cases c with
  | write xs =>
    obtain rfl := Option.some.inj hstep
    exact ⟨fun hok => h.write hb hok, fun ht => by_contra fun hno => h.write_over hb hno ht⟩
  | play frames =>
    simp only [playback] at hstep
    split_ifs at hstep with hle
    obtain rfl := Option.some.inj hstep
    exact ⟨fun _ => ⟨_, h.play hb hle⟩, fun _ => trivial⟩

lemma initial_shared (hn : 0 < n) (memory : ℤ → α) : Shared n (initial memory) [] :=
  ⟨rfl, Int.le_of_lt hn, fun _ hk => absurd hk (Nat.not_lt_zero _)⟩

lemma applAt_zero (hb : Bounds n b) : ApplAt b (0 : ℕ) 0 := by
  have hpos := hb.pos
  have htwice := hb.twice
  exact ⟨Int.le_refl 0, by omega, 0, (Int.mul_zero b).symm⟩

/-- What has not been played is in the memory in all states of a run exactly if nothing was written
while the memory was full and only the application had gone over the boundary. -/
theorem playback_iff {fuel : ℕ} (hn : 0 < n) (hsmall : 3 * n ≤ longMax)
    (hopen : boundary n fuel = some b) (memory : ℤ → α) (as : List (PlaybackAct α)) :
    Along (playback n b) (fun s => Intact n s s.hwPtr) (fun _ _ _ => True) (initial memory) as ↔
      Meets (playback n b) (PlaybackOk n b) (initial memory) as := by
  have hb := bounds_of_boundary hn hsmall hopen
  have hgood : ∀ {s : State α}, (∃ rest, PlaybackInv n b s rest) → Intact n s s.hwPtr := by
    rintro s ⟨rest, h⟩
    exact h.intact hb
  have hkeep : ∀ {c : PlaybackAct α} {s t : State α}, (∃ rest, PlaybackInv n b s rest) →
      PlaybackOk n b c s → playback n b s c = some t → (∃ rest, PlaybackInv n b t rest) ∧ True := by
    rintro c s t ⟨rest, h⟩ hok hstep
    exact ⟨(playback_step h hb hstep).1 hok, trivial⟩
  have hexact : ∀ {c : PlaybackAct α} {s t : State α}, (∃ rest, PlaybackInv n b s rest) →
      playback n b s c = some t → True → Intact n t t.hwPtr → PlaybackOk n b c s := by
    rintro c s t ⟨rest, h⟩ hstep - ht
    exact (playback_step h hb hstep).2 ht
  have hinit : PlaybackInv n b (initial memory) [] :=
    ⟨initial_shared hn memory, (Int.zero_emod b).symm, applAt_zero hb⟩
  exact along_iff_meets hgood hkeep hexact as ⟨[], hinit⟩

theorem playback_iff_two :
    Along (playback 2 (2 ^ 30)) (fun s => Intact 2 s s.hwPtr) (fun _ _ _ => True)
      (initial fun _ => 0) [.write [1, 2, 3], .play 1, .write [3]] :=
  (playback_iff (by decide) (by decide) (by rfl : boundary 2 30 = some (2 ^ 30)) _ _).mpr
    (meets_of_exec _ (by decide))

/-! A memory of at least two frames is written over in some run. -/

lemma applForward_eq {f : ℤ} (hb : Bounds n b) (hf : 0 ≤ f ∧ f ≤ n)
    (happl : 0 ≤ s.applPtr ∧ s.applPtr ≤ b) :
    mmapApplForward b s f = if b < s.applPtr + f then s.applPtr + f - b else s.applPtr + f := by
  have hmax := hb.le
  unfold longMax at hmax
  unfold mmapApplForward
  rw [toUInt_eq (by omega) (by omega)]
  dsimp only
  split_ifs with hover
  · exact toUInt_eq (by omega) (by omega)
  · rfl

/-- The whole memory is written, by an application that has not gone over the boundary, and `frames`
are played. -/
lemma exists_round (h : PlaybackInv n b s []) (hb : Bounds n b) (x : α) (frames : ℕ)
    (hframes : (frames : ℤ) ≤ n) (happl : s.applPtr = s.given.length) (hdvd : n ∣ s.given.length)
    (hle : s.given.length + n ≤ b) :
    ∃ t rest, Runs (playback n b) (fun _ _ => True) s t ∧ PlaybackInv n b t rest ∧
      (rest.length : ℤ) = n - frames ∧ t.applPtr = t.given.length ∧
      (t.given.length : ℤ) = s.given.length + n := by
  have hpos := hb.pos
  have htwice := hb.twice
  have hlength := h.shared.length
  simp only [List.length_nil] at hlength
  have hn : ((List.replicate n.toNat x).length : ℤ) = n := by
    rw [List.length_replicate]
    omega
  have hhw : s.hwPtr = s.given.length := by
    rw [h.hw, show (s.taken.length : ℤ) = s.given.length by omega]
    exact Int.emod_eq_of_lt (by omega) (by omega)
  obtain ⟨m, hwrite, hinv⟩ := h.write_all hb (List.replicate n.toNat x)
    (by unfold Wrapped; omega) (by simp only [List.length_nil]; omega)
    (by rw [Int.emod_eq_zero_of_dvd hdvd]; omega)
  have hforward := applForward_eq (s := s) hb (f := (List.replicate n.toNat x).length)
    (by omega) (by omega)
  rw [if_neg (by omega)] at hforward
  have hgiven : ((write n b s (List.replicate n.toNat x)).given.length : ℤ) =
      s.given.length + n := by
    rw [hwrite]
    simp only [List.length_append]
    omega
  have hplayed : (write n b s (List.replicate n.toNat x)).taken.length + frames ≤
      (write n b s (List.replicate n.toNat x)).given.length := by
    rw [show (write n b s (List.replicate n.toNat x)).taken = s.taken by rw [hwrite]]
    omega
  refine ⟨_, _, ?_, hinv.play hb hplayed, ?_, ?_, hgiven⟩
  · refine .tail (.single ⟨.write (List.replicate n.toNat x), trivial, rfl⟩)
      ⟨.play frames, trivial, ?_⟩
    exact if_pos hplayed
  · simp only [List.nil_append, List.length_drop, List.length_replicate]
    omega
  · dsimp only
    rw [hgiven, hwrite]
    dsimp only
    omega

/-- The hardware and the application come to the last place of the memory before the boundary. -/
lemma exists_rounds (hn : 0 < n) (hb : Bounds n b) (memory : ℤ → α) (x : α) (k : ℕ)
    (hle : (k + 1) * n ≤ b) :
    ∃ s, Runs (playback n b) (fun _ _ => True) (initial memory) s ∧ PlaybackInv n b s [] ∧
      s.applPtr = s.given.length ∧ (s.given.length : ℤ) = k * n := by
  induction k with
  | zero =>
    exact ⟨_, .refl, ⟨initial_shared hn memory, (Int.zero_emod b).symm, applAt_zero hb⟩, rfl,
      (Int.zero_mul n).symm⟩
  | succ k ih =>
    have hsucc : ((k + 1 : ℕ) + 1 : ℤ) * n = (k + 1) * n + n := by
      rw [Int.add_mul, Int.one_mul, Int.natCast_add, Int.natCast_one]
    obtain ⟨s, hrun, hinv, happl, hgiven⟩ := ih (by omega)
    have hmul : ((k : ℤ) + 1) * n = k * n + n := by rw [Int.add_mul, Int.one_mul]
    obtain ⟨t, rest, hround, hinv', hrest, happl', hgiven'⟩ :=
      exists_round hinv hb x n.toNat (by omega) happl
        ⟨k, by rw [hgiven, Int.mul_comm]⟩ (by omega)
    obtain rfl := List.length_eq_zero_iff.mp (by omega : rest.length = 0)
    refine ⟨t, hrun.trans hround, hinv', happl', ?_⟩
    rw [hgiven', hgiven, Int.natCast_add, Int.natCast_one, hmul]

/-- Then the application can go over the boundary alone. -/
lemma exists_wrapped (hn : 2 ≤ n) (hb : Bounds n b) (memory : ℤ → α) (x : α) :
    ∃ s rest, Runs (playback n b) (fun _ _ => True) (initial memory) s ∧ PlaybackInv n b s rest ∧
      Wrapped n b s := by
  have hpos := hb.pos
  have htwice := hb.twice
  obtain ⟨q, hq⟩ := hb.dvd
  have hqpos : 0 < q := Int.pos_of_mul_pos_right (by omega : 0 < n * q) hpos
  obtain ⟨k, rfl⟩ : ∃ k : ℕ, q = k + 1 := ⟨(q - 1).toNat, by omega⟩
  rw [Int.mul_comm] at hq
  have hmul : ((k : ℤ) + 1) * n = k * n + n := by rw [Int.add_mul, Int.one_mul]
  obtain ⟨s, hrun, hinv, happl, hgiven⟩ := exists_rounds hpos hb memory x k (Int.le_of_eq hq.symm)
  obtain ⟨t, rest, hround, hinv', hrest, happl', hgiven'⟩ :=
    exists_round hinv hb x 1 (by omega) happl ⟨k, by rw [hgiven, Int.mul_comm]⟩
      (by omega)
  have hlength := hinv'.shared.length
  have hend : (t.given.length : ℤ) = b := by omega
  have hhw : t.hwPtr = b - n + 1 := by
    rw [hinv'.hw, show (t.taken.length : ℤ) = b - n + 1 by omega]
    exact Int.emod_eq_of_lt (by omega) (by omega)
  have hone : (([x].length : ℕ) : ℤ) = 1 := rfl
  obtain ⟨m, hwrite, hover⟩ := hinv'.write_all hb [x] (by unfold Wrapped; omega) (by omega)
    (by rw [hend, Int.emod_eq_zero_of_dvd hb.dvd]; omega)
  refine ⟨_, _, (hrun.trans hround).tail ⟨.write [x], trivial, rfl⟩, hover, ?_⟩
  have hforward := applForward_eq (s := t) hb (f := ([x].length : ℕ)) (by omega) (by omega)
  unfold Wrapped
  rw [hwrite]
  dsimp only
  omega

/-- There is a run behind which something that has not been played is written over. -/
theorem exists_written_over (hn : 2 ≤ n) (hsmall : 3 * n ≤ longMax) (memory : ℤ → α) (x : α) :
    (∃ fuel b, boundary n fuel = some b) ∧ ∀ fuel b, boundary n fuel = some b →
      ∃ s, Runs (playback n b) (fun _ _ => True) (initial memory) s ∧ ¬ Intact n s s.hwPtr := by
  refine ⟨exists_boundary (by omega) (by omega), fun fuel b hopen => ?_⟩
  have hb := bounds_of_boundary (by omega) hsmall hopen
  obtain ⟨s, rest, hrun, hinv, hwrapped⟩ := exists_wrapped hn hb memory x
  refine ⟨_, hrun.tail ⟨.write [x], trivial, rfl⟩, hinv.write_over hb ?_⟩
  intro hok
  exact List.cons_ne_nil x [] (hok hwrapped)

theorem exists_written_over_two :
    ∃ s, Runs (playback 2 (2 ^ 30)) (fun _ _ => True) (initial fun _ => 0) s ∧
      ¬ Intact 2 s s.hwPtr :=
  (exists_written_over (by decide) (by decide) _ 1).2 30 _ (by rfl : boundary 2 30 = some (2 ^ 30))

end Playback

/-! ## Capture -/

section Capture

variable {α : Type} {n b : ℤ} {s t : State α} {rest : List α}

/-- What holds in all runs. -/
structure CaptureInv (n b : ℤ) (s : State α) (rest : List α) : Prop where
  shared : Shared n s rest
  hw : s.hwPtr = (s.given.length : ℤ) % b
  appl : ApplAt b s.taken.length s.applPtr

lemma CaptureInv.intact (h : CaptureInv n b s rest) (hb : Bounds n b) : Intact n s s.applPtr :=
  h.shared.intact hb.pos (h.appl.offset hb)

lemma CaptureInv.capture (h : CaptureInv n b s rest) (hb : Bounds n b) {xs : List α}
    (hroom : (s.given.length : ℤ) + xs.length ≤ s.taken.length + n) :
    CaptureInv n b
      { s with
        memory := Ring.copyIn s.memory n (s.hwPtr % n) xs
        hwPtr := (s.hwPtr + xs.length) % b, given := s.given ++ xs } (rest ++ xs) := by
  have hlength := h.shared.length
  refine ⟨h.shared.give hb.pos (by omega) ?_, ?_, h.appl⟩
  · rw [h.hw, Int.emod_emod_of_dvd _ hb.dvd]
  · dsimp only
    rw [h.hw, List.length_append, Int.emod_add_emod, Int.natCast_add]

/-- What is read is what was captured first. -/
lemma CaptureInv.read (h : CaptureInv n b s rest) (hb : Bounds n b) (frames : ℕ) :
    ∃ rest', CaptureInv n b (read n b s frames) rest' := by
  have hlength := h.shared.length
  have hfits := h.shared.fits
  have hpos := hb.pos
  have htwice := hb.twice
  have hmax := hb.le
  have hoff := Int.emod_nonneg (s.taken.length : ℤ) (by omega : n ≠ 0)
  have hofflt := Int.emod_lt_of_pos (s.taken.length : ℤ) hpos
  unfold longMax at hmax
  obtain ⟨d, hd, hle, hend⟩ : ∃ d : ℕ,
      mmapBegin n s (mmapCaptureAvail b s) frames = ((s.taken.length : ℤ) % n, (d : ℤ)) ∧
        d ≤ rest.length ∧ (s.taken.length : ℤ) % n + d ≤ n := by
    have hbegin : mmapBegin n s (mmapCaptureAvail b s) frames =
        ((s.taken.length : ℤ) % n,
          min (min (frames : ℤ) rest.length) (n - (s.taken.length : ℤ) % n)) := by
      unfold mmapBegin
      rw [captureAvail_eq hb h.hw h.appl (by omega), toUInt_eq (by omega) (by omega),
        h.appl.offset hb]
      dsimp only
      rw [show min ((s.given.length : ℤ) - s.taken.length) n = rest.length by omega]
    generalize hf : min (min (frames : ℤ) rest.length) (n - (s.taken.length : ℤ) % n) = f at hbegin
    exact ⟨f.toNat, by rw [hbegin, Int.toNat_of_nonneg (by omega)], by omega, by omega⟩
  unfold PcmMmap.read
  rw [hd]
  dsimp only
  have hload : Ring.load s.memory ((s.taken.length : ℤ) % n) d = rest.take d := by
    have hlen : ((rest.take d).length : ℤ) = d := by
      rw [List.length_take, Nat.min_eq_left hle]
    have hholds : Ring.Holds s.memory n ((s.taken.length : ℤ) % n)
        ([] ++ (rest.take d ++ rest.drop d)) := by
      rw [List.take_append_drop]
      exact h.shared.holds
    have hsame := hholds.load ⟨hoff, hofflt⟩ hoff (.inl (Int.add_zero _).symm) (by omega)
    rwa [hlen] at hsame
  rw [hload]
  refine ⟨rest.drop d, h.shared.take hpos hle, h.hw, ?_⟩
  have happl := applForward_at h.appl hb (d := d) (by omega)
  rw [List.length_append, List.length_take, Nat.min_eq_left hle, Int.natCast_add]
  exact happl

lemma capture_step (h : CaptureInv n b s rest) (hb : Bounds n b) {c : CaptureAct α}
    (hstep : capture n b s c = some t) : ∃ rest', CaptureInv n b t rest' := by
  cases c with
  | capture xs =>
    simp only [capture] at hstep
    split_ifs at hstep with hroom
    obtain rfl := Option.some.inj hstep
    exact ⟨_, h.capture hb hroom⟩
  | read frames =>
    obtain rfl := Option.some.inj hstep
    exact h.read hb frames

/-- On capture what has not been read is in the memory in all states of every run. -/
theorem capture_intact {fuel : ℕ} (hn : 0 < n) (hsmall : 3 * n ≤ longMax)
    (hopen : boundary n fuel = some b) {memory : ℤ → α}
    (hrun : Runs (capture n b) (fun _ _ => True) (initial memory) s) : Intact n s s.applPtr := by
  have hb := bounds_of_boundary hn hsmall hopen
  have hinit : CaptureInv n b (initial memory) [] :=
    ⟨initial_shared hn memory, (Int.zero_emod b).symm, applAt_zero hb⟩
  have hkeep : ∀ {s t : State α} {c : CaptureAct α}, (∃ rest, CaptureInv n b s rest) → True →
      capture n b s c = some t → ∃ rest, CaptureInv n b t rest := by
    rintro s t c ⟨rest, h⟩ - hstep
    exact capture_step h hb hstep
  obtain ⟨rest, h⟩ := Runs.invariant (P := fun s => ∃ rest, CaptureInv n b s rest) hkeep
    ⟨[], hinit⟩ hrun
  exact h.intact hb

theorem capture_intact_two :
    ∃ s : State ℕ, s.taken = [1, 2] ∧ Intact 2 s s.applPtr := by
  obtain ⟨s, hrun, htaken⟩ := exists_runs (capture 2 (2 ^ 30)) (fun _ _ => True)
    (fun s => s.taken = [1, 2]) (s := initial fun _ => 0)
    [.capture [1, 2], .read 1, .capture [3], .read 4] (by decide)
  exact ⟨s, htaken, capture_intact (by decide) (by decide)
    (by rfl : boundary 2 30 = some (2 ^ 30)) hrun⟩

end Capture

end Softwinner.Audio.PcmMmap

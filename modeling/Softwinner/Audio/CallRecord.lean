import Mathlib.Algebra.Group.Int.Defs
import Mathlib.Algebra.Group.Nat.Defs
import Mathlib.Data.List.Basic
import Softwinner.Framework.Ring
import Softwinner.Framework.Runs

/-!
# The recorder of calls

The part of `stream_transfer` of `planTwo/manage.c` that records, and `plan_two_mixer_buf`.  Two
threads, one for each direction of a call, put their samples into one ring.  The one that is ahead
copies, the other one averages with what is there.  The mixed samples are read from the ring.

No position is compared with the length of the ring or with the reader, and which thread is ahead
is decided for a whole buffer.  `good_iff_fits` is what that comes to.

Buffers are of whole samples.  Counters are `int` and wrap.
-/

namespace Softwinner.Audio.CallRecord

open Framework Framework.Ring

/-! ## Samples -/

/-- The mean of two samples; division is that of C. -/
def average (a b : Int16) : Int16 := Int16.ofInt ((a.toInt + b.toInt).tdiv 2)

/-- The two bytes of a sample. -/
def sampleBytes (a : Int16) : List UInt8 :=
  [UInt8.ofNat (a.toUInt16.toNat % 256), UInt8.ofNat (a.toUInt16.toNat / 256)]

def bytes (xs : List Int16) : List UInt8 := xs.flatMap sampleBytes

def sampleOf (lo hi : UInt8) : Int16 := (UInt16.ofNat (lo.toNat + 256 * hi.toNat)).toInt16

def samples : List UInt8 → List Int16
  | lo :: hi :: bs => sampleOf lo hi :: samples bs
  | _ => []

/-- A counter in an `int`. -/
def toInt (x : ℤ) : ℤ := x.bmod (2 ^ 32)

/-! ## State -/

inductive Direction
  | upstream | downstream
  deriving DecidableEq

def Direction.other : Direction → Direction
  | .upstream => .downstream
  | .downstream => .upstream

/-- `struct record_data`; `written` are `lenwriteup` and `lenwritedown`. -/
structure RecordData where
  recordBuf : ℤ → UInt8
  recordLenth : ℤ
  lenwrite : ℤ
  written : Direction → ℤ
  lenread : ℤ

/-- The samples in the buffer of each direction.  The ring has ten buffers of the upstream one; it
could be allocated, so that its length is an `int`. -/
structure Session where
  size : Direction → ℕ
  pos : 0 < size .upstream
  ring_lt : 20 * (size .upstream : ℤ) < 2 ^ 31
  size_lt : ∀ d, 2 * (size d : ℤ) < 2 ^ 31

def Session.recordLenth (c : Session) : ℤ := 20 * c.size .upstream

/-- The recorder, the samples of each direction so far, the bytes that have been read, and the
stores to the ring, as offset and length. -/
structure State where
  data : RecordData
  sent : Direction → List Int16
  delivered : List UInt8
  stores : List (ℤ × ℤ)

inductive Act
  /-- `stream_transfer` records a buffer. -/
  | transfer (d : Direction) (buf : List Int16)
  /-- `plan_two_mixer_buf` finds enough bytes. -/
  | mixerBuf (bytes : ℕ)

namespace RecordData

variable (p : RecordData)

/-- Where the next buffer goes. -/
def offset (d : Direction) : ℤ := (p.written d).tmod p.recordLenth

/-- A buffer goes into the ring. -/
def transfer (d : Direction) (buf : List Int16) : RecordData :=
  let size : ℤ := 2 * buf.length
  if p.written d ≥ p.written d.other then
    { p with
      recordBuf := store p.recordBuf (p.offset d) (bytes buf)
      written := fun e => if e = d then toInt (p.written d + size) else p.written e }
  else
    let old := samples (load p.recordBuf (p.offset d) size)
    { p with
      recordBuf := store p.recordBuf (p.offset d) (bytes (List.zipWith average old buf))
      lenwrite := toInt (p.lenwrite + size)
      written := fun e => if e = d then toInt (p.written d + size) else p.written e }

end RecordData

def State.step (c : Session) (s : State) : Act → Option State
  | .transfer d buf =>
    if buf.length = c.size d then
      some
        { s with
          data := s.data.transfer d buf
          sent := fun e => if e = d then s.sent d ++ buf else s.sent e
          stores := (s.data.offset d, 2 * (buf.length : ℤ)) :: s.stores }
    else none
  | .mixerBuf bytes =>
    -- else it waits
    if s.data.lenwrite - s.data.lenread ≥ bytes then
      let r := s.data.lenread.tmod s.data.recordLenth
      some
        { s with
          data := { s.data with lenread := toInt (s.data.lenread + bytes) }
          delivered := s.delivered ++ copyOut s.data.recordBuf s.data.recordLenth r bytes }
    else none

/-- The recorder after `plan_two_start_record`. -/
def started (c : Session) (recordBuf : ℤ → UInt8) : State where
  data := ⟨recordBuf, c.recordLenth, 0, fun _ => 0, 0⟩
  sent := fun _ => []
  delivered := []
  stores := []

/-! ## The property, and the condition -/

/-- The samples of both directions, mixed. -/
def State.mixed (s : State) : List Int16 :=
  List.zipWith average (s.sent .upstream) (s.sent .downstream)

/-- What has been read are the first of the mixed samples, the counters are in order, and all
stores were inside the ring. -/
structure Good (s : State) : Prop where
  delivered : s.delivered = (bytes s.mixed).take s.delivered.length
  lenread : s.data.lenread = s.delivered.length
  lenwrite : s.data.lenwrite = min (s.data.written .upstream) (s.data.written .downstream)
  read_le : s.data.lenread ≤ s.data.lenwrite
  inside : ∀ x ∈ s.stores, 0 ≤ x.1 ∧ x.1 + x.2 ≤ s.data.recordLenth

/-- What is a ring behind the new buffer has been read. -/
def NotOverwritten (a : Act) (s _ : State) : Prop :=
  match a with
  | .transfer d buf => s.data.written d + 2 * buf.length - s.data.recordLenth ≤ s.data.lenread
  | .mixerBuf _ => True

/-- A buffer does not go over the end of the ring.  If it is copied, there is room for it, and the
counter does not wrap; if it is averaged, all of it is behind what the other direction has. -/
def Fits (a : Act) (s : State) : Prop :=
  match a with
  | .transfer d buf =>
    s.data.offset d + 2 * buf.length ≤ s.data.recordLenth ∧
      if s.data.written d ≥ s.data.written d.other then
        s.data.written d + 2 * buf.length ≤ s.data.lenread + s.data.recordLenth ∧
          s.data.written d + 2 * buf.length < 2 ^ 31
      else s.data.written d + 2 * buf.length ≤ s.data.written d.other
  | .mixerBuf _ => True

/-! ## Bytes of samples -/

lemma average_comm (a b : Int16) : average a b = average b a := by
  rw [average, average, Int.add_comm]

lemma zipWith_average_comm (xs ys : List Int16) :
    List.zipWith average xs ys = List.zipWith average ys xs := by
  rw [List.zipWith_comm]
  simp only [average_comm]

lemma sampleOf_sampleBytes (a : Int16) :
    sampleOf (UInt8.ofNat (a.toUInt16.toNat % 256)) (UInt8.ofNat (a.toUInt16.toNat / 256)) = a := by
  have hlt : a.toUInt16.toNat < 65536 := a.toUInt16.toNat_lt
  have hsum : a.toUInt16.toNat % 256 % 256 + 256 * (a.toUInt16.toNat / 256 % 256) =
      a.toUInt16.toNat := by omega
  simp only [sampleOf, UInt8.toNat_ofNat']
  rw [hsum]
  simp

@[simp] lemma bytes_append (xs ys : List Int16) : bytes (xs ++ ys) = bytes xs ++ bytes ys :=
  List.flatMap_append

@[simp] lemma length_bytes (xs : List Int16) : (bytes xs).length = 2 * xs.length := by
  induction xs with
  | nil => rfl
  | cons x xs ih =>
    have hcons : bytes (x :: xs) = sampleBytes x ++ bytes xs := rfl
    rw [hcons, List.length_append, ih]
    simp only [sampleBytes, List.length_cons, List.length_nil]
    omega

lemma samples_bytes (xs : List Int16) : samples (bytes xs) = xs := by
  induction xs with
  | nil => rfl
  | cons x xs ih =>
    show sampleOf _ _ :: samples (bytes xs) = x :: xs
    rw [ih, sampleOf_sampleBytes]

/-! ## What the ring holds

The mixed samples, and behind them those of the direction that is ahead. -/

def content (xs ys : List Int16) : List Int16 :=
  List.zipWith average xs ys ++ (ys.drop xs.length ++ xs.drop ys.length)

section Content

variable {xs ys buf : List Int16}

lemma content_comm (xs ys : List Int16) : content xs ys = content ys xs := by
  have hrest : ys.drop xs.length ++ xs.drop ys.length = xs.drop ys.length ++ ys.drop xs.length := by
    rcases Nat.le_total xs.length ys.length with hle | hle
    · rw [List.drop_eq_nil_of_le hle, List.append_nil, List.nil_append]
    · rw [List.drop_eq_nil_of_le hle, List.append_nil, List.nil_append]
  rw [content, content, hrest, zipWith_average_comm]

lemma zipWith_append_left (hle : ys.length ≤ xs.length) :
    List.zipWith average (xs ++ buf) ys = List.zipWith average xs ys := by
  have hlen : (xs.take ys.length).length = ys.length := by simp; omega
  have hcut (zs : List Int16) : List.zipWith average (xs.take ys.length ++ zs) (ys ++ []) = _ :=
    List.zipWith_append hlen
  have hfront := hcut (xs.drop ys.length)
  have hlonger := hcut (xs.drop ys.length ++ buf)
  rw [List.take_append_drop, List.append_nil] at hfront
  rw [← List.append_assoc, List.take_append_drop, List.append_nil] at hlonger
  rw [hlonger, hfront]
  simp

lemma length_content : (content xs ys).length = max xs.length ys.length := by
  simp only [content, List.length_append, List.length_zipWith, List.length_drop]
  omega

/-- The direction that is ahead, or not behind, goes on. -/
lemma content_append (hle : ys.length ≤ xs.length) :
    content (xs ++ buf) ys = content xs ys ++ buf := by
  have hnil : ys.drop (xs ++ buf).length = [] := List.drop_eq_nil_of_le (by simp; omega)
  have hnil' : ys.drop xs.length = [] := List.drop_eq_nil_of_le hle
  rw [content, content, zipWith_append_left hle, hnil, hnil', List.drop_append_of_le_length hle]
  simp

/-- The samples that the direction ahead has at the place of `buf`, and those behind them. -/
lemma content_split (hle : xs.length + buf.length ≤ ys.length) :
    content xs ys = List.zipWith average xs ys ++
      ((ys.drop xs.length).take buf.length ++ ys.drop (xs.length + buf.length)) := by
  have hnil : xs.drop ys.length = [] := List.drop_eq_nil_of_le (by omega)
  rw [content, hnil, List.append_nil, ← List.drop_drop, List.take_append_drop]

lemma zipWith_append_right (hle : xs.length + buf.length ≤ ys.length) :
    List.zipWith average (xs ++ buf) ys = List.zipWith average xs ys ++
      List.zipWith average ((ys.drop xs.length).take buf.length) buf := by
  have hxs : (ys.take xs.length).length = xs.length := by simp; omega
  have hfront : List.zipWith average xs ys = List.zipWith average xs (ys.take xs.length) := by
    have hcut : List.zipWith average (ys.take xs.length ++ ys.drop xs.length) xs = _ :=
      zipWith_append_left (by omega)
    rw [List.take_append_drop] at hcut
    rw [zipWith_average_comm, hcut, zipWith_average_comm]
  have hbuf : ((ys.drop xs.length).take buf.length).length = buf.length := by simp; omega
  have hmid : List.zipWith average
      ((ys.drop xs.length).take buf.length ++ (ys.drop xs.length).drop buf.length) buf = _ :=
    zipWith_append_left (by omega)
  rw [List.take_append_drop] at hmid
  have hcut : List.zipWith average (xs ++ buf) (ys.take xs.length ++ ys.drop xs.length) = _ :=
    List.zipWith_append hxs.symm
  rw [List.take_append_drop] at hcut
  rw [hcut, ← hfront, ← hmid, zipWith_average_comm buf]

/-- The direction that is behind goes on. -/
lemma content_average (hle : xs.length + buf.length ≤ ys.length) :
    content (xs ++ buf) ys = List.zipWith average xs ys ++
      (List.zipWith average ((ys.drop xs.length).take buf.length) buf ++
        ys.drop (xs.length + buf.length)) := by
  have hnil : (xs ++ buf).drop ys.length = [] := List.drop_eq_nil_of_le (by simp; omega)
  rw [content, zipWith_append_right hle, hnil, List.append_nil, List.length_append,
    List.append_assoc]

end Content

/-! ## The invariant -/

def State.content (s : State) : List Int16 :=
  CallRecord.content (s.sent .upstream) (s.sent .downstream)

/-- The ring is a window of the content, from what has been read on. -/
structure Inv (c : Session) (s : State) : Prop where
  ring : s.data.recordLenth = c.recordLenth
  written : ∀ d, s.data.written d = 2 * (s.sent d).length
  written_lt : ∀ d, s.data.written d < 2 ^ 31
  window : ∀ d, s.data.written d ≤ s.data.lenread + s.data.recordLenth
  good : Good s
  holds : Holds s.data.recordBuf s.data.recordLenth (s.data.lenread % s.data.recordLenth)
    ((bytes s.content).drop s.delivered.length)

variable {c : Session} {s s' : State} {d : Direction} {buf : List Int16}

lemma other_ne (d : Direction) : d.other ≠ d := by cases d <;> decide

lemma forall_direction {p : Direction → Prop} (hd : p d) (hother : p d.other) (e : Direction) :
    p e := by
  cases d <;> cases e <;> assumption

/-- The two directions play the same part. -/
lemma mixed_eq (s : State) (d : Direction) :
    s.mixed = List.zipWith average (s.sent d) (s.sent d.other) := by
  cases d with
  | upstream => rfl
  | downstream => exact zipWith_average_comm _ _

lemma content_eq (s : State) (d : Direction) :
    s.content = CallRecord.content (s.sent d) (s.sent d.other) := by
  cases d with
  | upstream => rfl
  | downstream => exact content_comm _ _

lemma min_written (w : Direction → ℤ) (d : Direction) :
    min (w .upstream) (w .downstream) = min (w d) (w d.other) := by
  cases d with
  | upstream => rfl
  | downstream => exact Int.min_comm _ _

lemma toInt_of_lt {x : ℤ} (hpos : 0 ≤ x) (hlt : x < 2 ^ 31) : toInt x = x :=
  Int.bmod_eq_of_le (by omega) (by omega)

lemma toInt_of_ge {x : ℤ} (hge : 2 ^ 31 ≤ x) (hlt : x < 2 ^ 32) : toInt x = x - 2 ^ 32 := by
  have hmod : x % (2 ^ 32 : ℕ) = x := Int.emod_eq_of_lt (by omega) (by omega)
  rw [toInt, Int.bmod_def, hmod, if_neg (by omega)]
  rfl

lemma recordLenth_pos (c : Session) : 0 < c.recordLenth := by
  have := c.pos
  unfold Session.recordLenth
  omega

lemma copyIn_eq_store {α : Type} {m : ℤ → α} {n w : ℤ} {xs : List α} (h : w + xs.length ≤ n) :
    copyIn m n w xs = store m w xs :=
  if_neg (by omega)

namespace Inv

variable (hs : Inv c s)

include hs

lemma pos : 0 < s.data.recordLenth := by
  rw [hs.ring]
  exact recordLenth_pos c

lemma lenread_nonneg : 0 ≤ s.data.lenread := by
  rw [hs.good.lenread]
  exact Int.natCast_nonneg _

lemma offset_eq (d : Direction) : s.data.offset d = s.data.written d % s.data.recordLenth := by
  have := hs.written d
  exact Int.tmod_eq_emod_of_nonneg (by omega)

/-- Where the next buffer goes is a place of the ring. -/
lemma offset_mem (d : Direction) : 0 ≤ s.data.offset d ∧ s.data.offset d ≤ s.data.recordLenth := by
  have hpos := hs.pos
  have hlt := Int.emod_lt_of_pos (s.data.written d) hpos
  rw [hs.offset_eq]
  exact ⟨Int.emod_nonneg _ (by omega), by omega⟩

lemma read_mem : 0 ≤ s.data.lenread % s.data.recordLenth ∧
    s.data.lenread % s.data.recordLenth < s.data.recordLenth :=
  ⟨Int.emod_nonneg _ (Int.ne_of_gt hs.pos), Int.emod_lt_of_pos _ hs.pos⟩

lemma lenwrite_eq (d : Direction) :
    s.data.lenwrite = min (s.data.written d) (s.data.written d.other) :=
  hs.good.lenwrite.trans (min_written _ d)

end Inv

/-- The state behind a transfer, with what it does to the ring left open. -/
def State.afterTransfer (s : State) (d : Direction) (buf : List Int16) (recordBuf : ℤ → UInt8)
    (lenwrite : ℤ) : State where
  data :=
    { s.data with
      recordBuf := recordBuf
      lenwrite := lenwrite
      written := fun e => if e = d then s.data.written d + 2 * buf.length else s.data.written e }
  sent := fun e => if e = d then s.sent d ++ buf else s.sent e
  delivered := s.delivered
  stores := (s.data.offset d, 2 * (buf.length : ℤ)) :: s.stores

lemma sent_afterTransfer (s : State) (d : Direction) (buf : List Int16) (recordBuf : ℤ → UInt8)
    (lenwrite : ℤ) :
    (s.afterTransfer d buf recordBuf lenwrite).sent d = s.sent d ++ buf ∧
      (s.afterTransfer d buf recordBuf lenwrite).sent d.other = s.sent d.other := by
  simp [State.afterTransfer, other_ne]

/-- What a transfer keeps, whatever it does to the ring. -/
lemma Inv.afterTransfer (hs : Inv c s) {recordBuf : ℤ → UInt8} {lenwrite : ℤ}
    (hfit : s.data.offset d + 2 * buf.length ≤ s.data.recordLenth)
    (hwindow : s.data.written d + 2 * buf.length ≤ s.data.lenread + s.data.recordLenth)
    (hlt : s.data.written d + 2 * buf.length < 2 ^ 31)
    (hlenwrite : lenwrite = min (s.data.written d + 2 * buf.length) (s.data.written d.other))
    (hread : s.data.lenread ≤ lenwrite)
    (hmixed : (bytes (List.zipWith average (s.sent d ++ buf) (s.sent d.other))).take
      s.delivered.length = (bytes s.mixed).take s.delivered.length)
    (hholds : Holds recordBuf s.data.recordLenth (s.data.lenread % s.data.recordLenth)
      ((bytes (CallRecord.content (s.sent d ++ buf) (s.sent d.other))).drop s.delivered.length)) :
    Inv c (s.afterTransfer d buf recordBuf lenwrite) := by
  obtain ⟨hsent, hother⟩ := sent_afterTransfer s d buf recordBuf lenwrite
  have hw : (s.afterTransfer d buf recordBuf lenwrite).data.written d =
      s.data.written d + 2 * buf.length := if_pos rfl
  have hw' : (s.afterTransfer d buf recordBuf lenwrite).data.written d.other =
      s.data.written d.other := if_neg (other_ne d)
  refine ⟨hs.ring, forall_direction (d := d) ?_ ?_, forall_direction (d := d) ?_ ?_,
    forall_direction (d := d) ?_ ?_, ⟨?_, hs.good.lenread, ?_, hread, ?_⟩, ?_⟩
  · rw [hw, hsent, hs.written d, List.length_append]
    omega
  · rw [hw', hother]
    exact hs.written d.other
  · rw [hw]
    exact hlt
  · rw [hw']
    exact hs.written_lt d.other
  · rw [hw]
    exact hwindow
  · rw [hw']
    exact hs.window d.other
  · rw [mixed_eq _ d, hsent, hother]
    exact hs.good.delivered.trans hmixed.symm
  · rw [min_written _ d, hw, hw']
    exact hlenwrite
  · intro x hx
    rcases List.mem_cons.mp hx with rfl | hx
    · exact ⟨(hs.offset_mem d).1, hfit⟩
    · exact hs.good.inside x hx
  · rw [content_eq _ d, hsent, hother]
    exact hholds

/-! ## Transfers -/

/-- The direction ahead copies. -/
lemma Inv.copy (hs : Inv c s) (hge : s.data.written d ≥ s.data.written d.other)
    (hfit : s.data.offset d + 2 * buf.length ≤ s.data.recordLenth)
    (hroom : s.data.written d + 2 * buf.length ≤ s.data.lenread + s.data.recordLenth)
    (hlt : s.data.written d + 2 * buf.length < 2 ^ 31) :
    Inv c (s.afterTransfer d buf (store s.data.recordBuf (s.data.offset d) (bytes buf))
      s.data.lenwrite) := by
  have hw := hs.written d
  have hw' := hs.written d.other
  have hle : (s.sent d.other).length ≤ (s.sent d).length := by omega
  have hlenread := hs.good.lenread
  have hread := hs.good.read_le
  have hmin := hs.lenwrite_eq d
  -- what is unread, up to the place of the buffer
  have hlen : (((bytes s.content).drop s.delivered.length).length : ℤ) =
      s.data.written d - s.data.lenread := by
    rw [content_eq s d, List.length_drop, length_bytes, length_content]
    omega
  have hbehind := behind_emod hs.pos (hs.window d) hlen
  rw [← hs.offset_eq] at hbehind
  have hspace : (((bytes s.content).drop s.delivered.length).length : ℤ) + (bytes buf).length ≤
      s.data.recordLenth := by
    rw [hlen, length_bytes]
    omega
  have hstore : copyIn s.data.recordBuf s.data.recordLenth (s.data.offset d) (bytes buf) =
      store s.data.recordBuf (s.data.offset d) (bytes buf) :=
    copyIn_eq_store (by rw [length_bytes]; omega)
  rw [← hstore]
  refine hs.afterTransfer hfit hroom hlt (by omega) hread ?_ ?_
  · rw [zipWith_append_left hle, mixed_eq s d]
  · have hcontent : (bytes (CallRecord.content (s.sent d ++ buf) (s.sent d.other))).drop
        s.delivered.length = (bytes s.content).drop s.delivered.length ++ bytes buf := by
      rw [content_append hle, bytes_append, content_eq s d, List.drop_append_of_le_length]
      rw [length_bytes, length_content]
      omega
    rw [hcontent]
    exact (hs.holds.copyIn hs.read_mem (hs.offset_mem d) hbehind hspace).append
      (holds_copyIn (hs.offset_mem d) (by omega)) hs.read_mem (hs.offset_mem d) hbehind hspace

/-- The direction behind averages. -/
lemma Inv.average (hs : Inv c s)
    (hfit : s.data.offset d + 2 * buf.length ≤ s.data.recordLenth)
    (hle : s.data.written d + 2 * buf.length ≤ s.data.written d.other) :
    Inv c (s.afterTransfer d buf
      (store s.data.recordBuf (s.data.offset d) (bytes (List.zipWith CallRecord.average
        (samples (load s.data.recordBuf (s.data.offset d) (2 * buf.length))) buf)))
      (s.data.lenwrite + 2 * buf.length)) := by
  have hw := hs.written d
  have hw' := hs.written d.other
  have hlen : (s.sent d).length + buf.length ≤ (s.sent d.other).length := by omega
  have hlenread := hs.good.lenread
  have hread := hs.good.read_le
  have hmin := hs.lenwrite_eq d
  have hwindow := hs.window d.other
  have hlt := hs.written_lt d.other
  -- the mixed samples, what is averaged now, and what is behind it
  let front := List.zipWith CallRecord.average (s.sent d) (s.sent d.other)
  let mid := ((s.sent d.other).drop (s.sent d).length).take buf.length
  let back := (s.sent d.other).drop ((s.sent d).length + buf.length)
  have hfront : front.length = (s.sent d).length := by simp [front]; omega
  have hmid : mid.length = buf.length := by simp [mid]; omega
  have hback : back.length = (s.sent d.other).length - ((s.sent d).length + buf.length) := by
    simp [back]
  have hcut (zs : List UInt8) : (bytes front ++ zs).drop s.delivered.length =
      (bytes front).drop s.delivered.length ++ zs :=
    List.drop_append_of_le_length (by rw [length_bytes, hfront]; omega)
  have hunread : (((bytes front).drop s.delivered.length).length : ℤ) =
      s.data.written d - s.data.lenread := by
    rw [List.length_drop, length_bytes, hfront]
    omega
  have hholds := hs.holds
  rw [content_eq s d, content_split hlen, bytes_append, bytes_append, hcut] at hholds
  have hbehind := behind_emod hs.pos (hs.window d) hunread
  rw [← hs.offset_eq] at hbehind
  -- the other direction's samples are where the buffer goes
  have hload : load s.data.recordBuf (s.data.offset d) (2 * buf.length) = bytes mid := by
    have hbytes : ((bytes mid).length : ℤ) = 2 * buf.length := by
      rw [length_bytes, hmid]
      omega
    have hend : s.data.offset d + (bytes mid).length ≤ s.data.recordLenth := by omega
    rw [← hbytes]
    exact hholds.load hs.read_mem (hs.offset_mem d).1 hbehind hend
  rw [hload, samples_bytes]
  have hnew : (List.zipWith CallRecord.average mid buf).length = buf.length := by simp [hmid]
  have hstore (m : ℤ → UInt8) :
      store m (s.data.offset d) (bytes (List.zipWith CallRecord.average mid buf)) =
        copyIn m s.data.recordLenth (s.data.offset d)
          (bytes (List.zipWith CallRecord.average mid buf)) :=
    (copyIn_eq_store (by rw [length_bytes, hnew]; omega)).symm
  rw [hstore]
  refine hs.afterTransfer hfit (by omega) (by omega) (by omega) (by omega) ?_ ?_
  · rw [zipWith_append_right hlen, mixed_eq s d, bytes_append, List.take_append_of_le_length]
    rw [length_bytes, hfront]
    omega
  · rw [content_average hlen, bytes_append, bytes_append, hcut]
    refine hholds.replace hs.read_mem (hs.offset_mem d) hbehind ?_ ?_
    · rw [length_bytes, length_bytes, hnew, hmid]
    · rw [hunread, length_bytes, length_bytes, hmid, hback]
      omega

/-- A transfer that fits. -/
lemma Inv.transfer (hs : Inv c s) (hok : Fits (.transfer d buf) s)
    (hstep : s.step c (.transfer d buf) = some s') :
    Inv c s' ∧ NotOverwritten (.transfer d buf) s s' := by
  simp only [State.step] at hstep
  split at hstep
  swap
  · cases hstep
  obtain rfl := Option.some.inj hstep
  obtain ⟨hfit, hok⟩ := hok
  have hw := hs.written d
  have hmin := hs.lenwrite_eq d
  have hwindow := hs.window d.other
  have hlt := hs.written_lt d.other
  simp only [NotOverwritten, RecordData.transfer]
  by_cases hge : s.data.written d ≥ s.data.written d.other
  · rw [if_pos hge] at hok ⊢
    rw [toInt_of_lt (by omega) hok.2]
    exact ⟨hs.copy hge hfit hok.1 hok.2, by omega⟩
  · rw [if_neg hge] at hok ⊢
    rw [toInt_of_lt (by omega) (by omega), toInt_of_lt (by omega) (by omega)]
    exact ⟨hs.average hfit hok, by omega⟩

/-- A transfer that keeps the property fits. -/
lemma Inv.fits_of_good (hs : Inv c s) (hstep : s.step c (.transfer d buf) = some s')
    (hover : NotOverwritten (.transfer d buf) s s') (hgood : Good s') :
    Fits (.transfer d buf) s := by
  simp only [State.step] at hstep
  split at hstep
  swap
  · cases hstep
  rename_i hsize
  obtain rfl := Option.some.inj hstep
  have hlt : 2 * (buf.length : ℤ) < 2 ^ 31 := hsize ▸ c.size_lt d
  have hw := hs.written d
  have hwlt := hs.written_lt d
  have hmin := hs.lenwrite_eq d
  have hlenread := hs.lenread_nonneg
  have hread := hs.good.read_le
  have hring : (s.data.transfer d buf).recordLenth = s.data.recordLenth := by
    unfold RecordData.transfer
    split <;> rfl
  have hfit := (hgood.inside _ (List.mem_cons_self ..)).2
  have hlenwrite := hgood.lenwrite.trans (min_written _ d)
  have hread' := hgood.read_le
  simp only [NotOverwritten] at hover
  simp only [hring] at hfit
  simp only [RecordData.transfer] at hlenwrite hread'
  refine ⟨hfit, ?_⟩
  by_cases hge : s.data.written d ≥ s.data.written d.other
  · rw [if_pos hge] at hlenwrite hread' ⊢
    simp only [if_true, other_ne, if_false] at hlenwrite hread'
    refine ⟨by omega, ?_⟩
    -- a counter that wraps is below `lenwrite`
    by_contra hwrap
    rw [toInt_of_ge (by omega) (by omega)] at hlenwrite
    omega
  · rw [if_neg hge] at hlenwrite hread' ⊢
    simp only [if_true, other_ne, if_false] at hlenwrite hread'
    by_contra hbeyond
    by_cases hwrap : s.data.written d + 2 * buf.length < 2 ^ 31
    · rw [toInt_of_lt (by omega) (by omega), toInt_of_lt (by omega) (by omega)] at hlenwrite
      omega
    · rw [toInt_of_ge (by omega) (by omega)] at hread'
      omega

/-! ## Reads -/

lemma Inv.mixerBuf (hs : Inv c s) {n : ℕ} (hstep : s.step c (.mixerBuf n) = some s') :
    Inv c s' := by
  simp only [State.step] at hstep
  split at hstep
  swap
  · cases hstep
  rename_i hn
  obtain rfl := Option.some.inj hstep
  have hlenread := hs.good.lenread
  have hread := hs.good.read_le
  have hmin := hs.good.lenwrite
  have hup := hs.written .upstream
  have hdown := hs.written .downstream
  have hlt := hs.written_lt .upstream
  have hupwindow := hs.window .upstream
  have hdownwindow := hs.window .downstream
  -- the mixed samples are the front of the content
  obtain ⟨rest, hrest⟩ : ∃ rest, s.content = s.mixed ++ rest := ⟨_, rfl⟩
  have hmixed : ((bytes s.mixed).length : ℤ) = s.data.lenwrite := by
    rw [length_bytes, State.mixed, List.length_zipWith]
    omega
  have hcontent : (s.content.length : ℤ) * 2 ≤ s.data.lenread + s.data.recordLenth := by
    rw [State.content, length_content]
    omega
  have htmod : s.data.lenread.tmod s.data.recordLenth = s.data.lenread % s.data.recordLenth :=
    Int.tmod_eq_emod_of_nonneg hs.lenread_nonneg
  have hdrop : (bytes s.content).drop s.delivered.length =
      (bytes s.mixed).drop s.delivered.length ++ bytes rest := by
    rw [hrest, bytes_append, List.drop_append_of_le_length (by omega)]
  have hcopy : copyOut s.data.recordBuf s.data.recordLenth
      (s.data.lenread % s.data.recordLenth) n =
        ((bytes s.mixed).drop s.delivered.length).take n := by
    rw [hs.holds.copyOut hs.read_mem, hdrop]
    · rw [Int.toNat_natCast, List.take_append_of_le_length]
      rw [List.length_drop]
      omega
    · rw [hdrop, List.length_append, List.length_drop]
      omega
  have htoInt : toInt (s.data.lenread + n) = s.data.lenread + n :=
    toInt_of_lt (by omega) (by omega)
  have hlen : (s.delivered ++ ((bytes s.mixed).drop s.delivered.length).take n).length =
      s.delivered.length + n := by
    rw [List.length_append, List.length_take, List.length_drop]
    omega
  simp only [htmod, hcopy, htoInt]
  refine ⟨hs.ring, hs.written, hs.written_lt, fun d => ?_, ⟨?_, ?_, hmin, ?_, hs.good.inside⟩, ?_⟩
  · have := hs.window d
    show s.data.written d ≤ s.data.lenread + n + s.data.recordLenth
    omega
  · rw [hlen]
    show s.delivered ++ _ = (bytes s.mixed).take _
    rw [List.take_add, ← hs.good.delivered]
  · rw [hlen]
    show s.data.lenread + n = _
    omega
  · show s.data.lenread + n ≤ s.data.lenwrite
    omega
  · rw [hlen]
    show Holds s.data.recordBuf s.data.recordLenth ((s.data.lenread + n) % s.data.recordLenth)
      ((bytes s.content).drop _)
    rw [← List.drop_drop]
    refine hs.holds.drop ?_ hs.read_mem ?_ ?_ ?_
    · rw [hdrop, List.length_append, List.length_drop]
      omega
    · exact ⟨Int.emod_nonneg _ (Int.ne_of_gt hs.pos), Int.emod_lt_of_pos _ hs.pos⟩
    · rw [List.length_drop, length_bytes]
      omega
    · exact emod_add_cases hs.pos ⟨by omega, by omega⟩

/-! ## Runs -/

lemma inv_started (c : Session) (recordBuf : ℤ → UInt8) : Inv c (started c recordBuf) := by
  have hpos := recordLenth_pos c
  refine ⟨rfl, fun _ => rfl, fun _ => ?_, fun _ => ?_, ⟨rfl, rfl, rfl, Int.le_refl _, nofun⟩, nofun⟩
  · show (0 : ℤ) < 2 ^ 31
    decide
  · show (0 : ℤ) ≤ 0 + c.recordLenth
    omega

/-- **The recorder.**  Along any sequence of transfers and reads, the samples that are read are the
means of the samples of both directions, the counters are in order, the stores stay inside the
ring, and nothing is overwritten that has not been read, if and only if every buffer fits. -/
theorem good_iff_fits (c : Session) (recordBuf : ℤ → UInt8) (as : List Act) :
    Along (State.step c) Good NotOverwritten (started c recordBuf) as ↔
      Meets (State.step c) Fits (started c recordBuf) as := by
  refine along_iff_meets (fun hs : Inv c _ => hs.good) ?_ ?_ as (inv_started c recordBuf)
  · intro a s s' hs hok hstep
    cases a with
    | transfer d buf => exact hs.transfer hok hstep
    | mixerBuf n => exact ⟨hs.mixerBuf hstep, trivial⟩
  · intro a s s' hs hstep hover hgood
    cases a with
    | transfer d buf => exact hs.fits_of_good hstep hover hgood
    | mixerBuf n => trivial

/-- Buffers of one sample, and a ring of ten. -/
def oneSample : Session where
  size := fun _ => 1
  pos := by decide
  ring_lt := by decide
  size_lt := fun _ => by decide

/-- Eleven buffers of the upstream thread, then one of the other, and a read. -/
def elevenAhead : List Act :=
  (List.range 11).map (fun k => .transfer .upstream [Int16.ofNat (2 * k)]) ++
    [.transfer .downstream [0], .mixerBuf 2]

/-- The upstream thread is eleven buffers ahead when the first downstream one comes: what is read
is the mean of the eleventh sample and the first one. -/
theorem eleventh_sample_read : ∃ s,
    elevenAhead.foldlM (State.step oneSample) (started oneSample fun _ => 0) = some s ∧
    samples s.delivered = [10] ∧ s.mixed = [0] ∧ ¬ Good s := by
  refine ⟨_, rfl, by decide +kernel, by decide +kernel, fun hgood => ?_⟩
  exact absurd hgood.delivered (by decide +kernel)

end Softwinner.Audio.CallRecord

import Softwinner.Framework.Ring
import Softwinner.Framework.Runs

/-!
# The ring of the AF capture

`WritePcmData` and `ReadPcmData` of `audio_hw.c`: `out_write` copies what it plays into a ring,
and the AF input stream reads from it.  One caller of each runs at a time.

A call is cut into the steps that the other side can see: the test of the length, outside the
lock; the copy, which the reader makes outside the lock too; and the update of the pointers.
`memory` is addressed from `BufStart` on, so that an address outside the ring is still an
address.  What the copies touch is kept in `copies`.
-/

namespace Softwinner.Audio.AfRing

open Framework Framework.Ring

/-- `AF_BUFFER_SIZE`. -/
def afBufferSize : ℤ := 1024 * 80

/-- `struct pcm_buf_manager`; the pointers are offsets from `BufStart`. -/
structure PcmBufManager where
  memory : ℤ → UInt8
  bufTotalLen : ℤ
  bufWritPtr : ℤ
  bufReadPtr : ℤ
  bufValideLen : ℤ
  dataLen : ℤ

/-- A `memcpy` between the ring and the `callerLen` bytes of a caller. -/
structure Copy where
  ring : ℤ
  caller : ℤ
  len : ℤ
  callerLen : ℤ

/-- A copy stays inside a ring of `n` bytes, and inside the bytes of the caller. -/
def Copy.Inside (n : ℤ) (c : Copy) : Prop :=
  0 ≤ c.len ∧ 0 ≤ c.ring ∧ c.ring + c.len ≤ n ∧ 0 ≤ c.caller ∧ c.caller + c.len ≤ c.callerLen

/-- A `ReadPcmData` that has returned: the bytes that it took from the ring, and the `getLen` bytes
at `pBuf`. -/
structure ReadResult where
  getLen : ℕ
  real : List UInt8
  buf : List UInt8

inductive WriterPc
  | idle
  /-- There is room for the data. -/
  | tested (data : List UInt8)
  /-- Inside the lock, behind the copy. -/
  | copied (data : List UInt8)

/-- What `ReadPcmData` has in its variables; `pBuf` is the memory of the caller from there on, and
`real` is for the statements only. -/
structure Reading where
  getLen : ℕ
  sizeRead : ℤ
  underflow : Bool
  fillDcSize : ℤ
  pBuf : ℤ → UInt8
  real : List UInt8

inductive ReaderPc
  | idle
  | tested (r : Reading)
  | copied (r : Reading)

/-- The ring, its two users, the copies so far, the bytes of all accepted writes, and the reads
that have returned. -/
structure State where
  pcm : PcmBufManager
  writer : WriterPc
  reader : ReaderPc
  copies : List Copy
  written : List UInt8
  results : List ReadResult

/-! ## The sections of the two functions -/

namespace PcmBufManager

variable (p : PcmBufManager)

/-- The copies of `WritePcmData`. -/
def writeCopies (inSize : ℤ) : List Copy :=
  if p.bufTotalLen < p.bufWritPtr + inSize then
    let endSize := p.bufTotalLen - p.bufWritPtr
    [⟨p.bufWritPtr, 0, endSize, inSize⟩, ⟨0, endSize, inSize - endSize, inSize⟩]
  else [⟨p.bufWritPtr, 0, inSize, inSize⟩]

/-- The ring behind these copies. -/
def writeCopy (data : List UInt8) : PcmBufManager :=
  if p.bufTotalLen < p.bufWritPtr + data.length then
    let endSize := (p.bufTotalLen - p.bufWritPtr).toNat
    { p with memory := store (store p.memory p.bufWritPtr (data.take endSize)) 0 (data.drop endSize) }
  else { p with memory := store p.memory p.bufWritPtr data }

/-- The update of `WritePcmData`. -/
def writeUpdate (inSize : ℤ) : PcmBufManager :=
  { p with
    bufWritPtr :=
      if p.bufTotalLen < p.bufWritPtr + inSize then p.bufWritPtr + inSize - p.bufTotalLen
      else p.bufWritPtr + inSize
    bufValideLen := p.bufValideLen - inSize
    dataLen := p.dataLen + inSize }

/-- The copies of `ReadPcmData`. -/
def readCopies (sizeRead getLen : ℤ) : List Copy :=
  if p.bufTotalLen < p.bufReadPtr + sizeRead then
    let len1 := p.bufTotalLen - p.bufReadPtr
    [⟨p.bufReadPtr, 0, len1, getLen⟩, ⟨0, len1, sizeRead - len1, getLen⟩]
  else [⟨p.bufReadPtr, 0, sizeRead, getLen⟩]

/-- The memory of the caller behind these copies. -/
def readCopy (sizeRead : ℤ) (pBuf : ℤ → UInt8) : ℤ → UInt8 :=
  if p.bufTotalLen < p.bufReadPtr + sizeRead then
    let len1 := p.bufTotalLen - p.bufReadPtr
    store (store pBuf 0 (load p.memory p.bufReadPtr len1)) len1 (load p.memory 0 (sizeRead - len1))
  else store pBuf 0 (load p.memory p.bufReadPtr sizeRead)

/-- The update of `ReadPcmData`. -/
def readUpdate (sizeRead : ℤ) : PcmBufManager :=
  { p with
    bufReadPtr :=
      if p.bufTotalLen ≤ p.bufReadPtr + sizeRead then p.bufReadPtr + sizeRead - p.bufTotalLen
      else p.bufReadPtr + sizeRead
    dataLen := p.dataLen - sizeRead
    bufValideLen := p.bufValideLen + sizeRead }

end PcmBufManager

/-- The end of `ReadPcmData`: the rest is filled with the last byte, or with the one in front of
`pBuf` if there is none. -/
def Reading.fill (r : Reading) : ℤ → UInt8 :=
  if r.underflow then
    store r.pBuf r.sizeRead (List.replicate r.fillDcSize.toNat (r.pBuf (r.sizeRead - 1)))
  else r.pBuf

/-! ## Steps -/

inductive Act
  | writeTest (data : List UInt8)
  | writeCopy
  | writeUpdate
  /-- `active`: there is an active output, and `ReadPcmData` waits for its data until it has
  `timedOut`. -/
  | readTest (getLen : ℕ) (pBuf : ℤ → UInt8) (active timedOut : Bool)
  | readCopy
  | readUpdate

namespace State

variable (s : State)

def step : Act → Option State
  | .writeTest data =>
    match s.writer with
    | .idle =>
      -- a write that does not fit returns -1
      if s.pcm.bufValideLen < data.length then some s else some { s with writer := .tested data }
    | _ => none
  | .writeCopy =>
    match s.writer with
    | .tested data =>
      some { s with
        pcm := s.pcm.writeCopy data, copies := s.pcm.writeCopies data.length ++ s.copies
        writer := .copied data }
    | _ => none
  | .writeUpdate =>
    match s.writer with
    | .copied data =>
      some { s with
        pcm := s.pcm.writeUpdate data.length, written := s.written ++ data, writer := .idle }
    | _ => none
  | .readTest getLen pBuf active timedOut =>
    match s.reader with
    | .idle =>
      if s.pcm.dataLen < getLen then
        if active && !timedOut then none
        else
          some { s with
            reader := .tested ⟨getLen, s.pcm.dataLen, true, getLen - s.pcm.dataLen, pBuf, []⟩ }
      else some { s with reader := .tested ⟨getLen, getLen, false, 0, pBuf, []⟩ }
    | _ => none
  | .readCopy =>
    match s.reader with
    | .tested r =>
      some { s with
        copies := s.pcm.readCopies r.sizeRead r.getLen ++ s.copies
        reader := .copied { r with
          pBuf := s.pcm.readCopy r.sizeRead r.pBuf
          real := copyOut s.pcm.memory s.pcm.bufTotalLen s.pcm.bufReadPtr r.sizeRead } }
    | _ => none
  | .readUpdate =>
    match s.writer, s.reader with
    -- the writer has the lock
    | .copied _, _ => none
    | _, .copied r =>
      some { s with
        pcm := s.pcm.readUpdate r.sizeRead
        results := s.results ++ [⟨r.getLen, r.real, load r.fill 0 r.getLen⟩]
        reader := .idle }
    | _, _ => none

end State

/-- The ring as `adev_open_input_stream` sets it up. -/
def opened (memory : ℤ → UInt8) : State where
  pcm := ⟨memory, afBufferSize, 0, 0, afBufferSize, 0⟩
  writer := .idle
  reader := .idle
  copies := []
  written := []
  results := []

/-! ## The ring holds what has been written and not been read -/

/-- The ring holds `pending`. -/
structure RingInv (p : PcmBufManager) (pending : List UInt8) : Prop where
  read : 0 ≤ p.bufReadPtr ∧ p.bufReadPtr < p.bufTotalLen
  writ : 0 ≤ p.bufWritPtr ∧ p.bufWritPtr ≤ p.bufTotalLen
  data : p.dataLen = pending.length
  valide : 0 ≤ p.bufValideLen
  sum : p.dataLen + p.bufValideLen = p.bufTotalLen
  behind : Behind p.bufTotalLen p.bufReadPtr pending p.bufWritPtr
  holds : Holds p.memory p.bufTotalLen p.bufReadPtr pending

section Ring

variable {p : PcmBufManager} {pending data : List UInt8} {sizeRead : ℤ}

lemma writeCopy_eq (p : PcmBufManager) (data : List UInt8) :
    p.writeCopy data = { p with memory := copyIn p.memory p.bufTotalLen p.bufWritPtr data } := by
  unfold PcmBufManager.writeCopy copyIn
  split_ifs <;> rfl

lemma RingInv.writeCopy (hp : RingInv p pending) (hfit : (data.length : ℤ) ≤ p.bufValideLen) :
    RingInv (p.writeCopy data) pending ∧
      Holds (p.writeCopy data).memory p.bufTotalLen p.bufWritPtr data := by
  have hdata := hp.data
  have hsum := hp.sum
  have hvalide := hp.valide
  rw [writeCopy_eq]
  refine ⟨⟨hp.read, hp.writ, hp.data, hp.valide, hp.sum, hp.behind, ?_⟩, ?_⟩
  · exact hp.holds.copyIn hp.read hp.writ hp.behind (by omega)
  · exact holds_copyIn hp.writ (by omega)

lemma RingInv.writeCopies (hp : RingInv p pending) (hfit : (data.length : ℤ) ≤ p.bufValideLen)
    {c : Copy} (hc : c ∈ p.writeCopies data.length) : c.Inside p.bufTotalLen := by
  have hwrit := hp.writ
  have hdata := hp.data
  have hsum := hp.sum
  unfold PcmBufManager.writeCopies at hc
  split_ifs at hc
  · rcases List.mem_cons.mp hc with rfl | hc
    · refine ⟨?_, ?_, ?_, ?_, ?_⟩ <;> simp only <;> omega
    · obtain rfl := List.mem_singleton.mp hc
      refine ⟨?_, ?_, ?_, ?_, ?_⟩ <;> simp only <;> omega
  · obtain rfl := List.mem_singleton.mp hc
    refine ⟨?_, ?_, ?_, ?_, ?_⟩ <;> simp only <;> omega

lemma RingInv.writeUpdate (hp : RingInv p pending) (hfit : (data.length : ℤ) ≤ p.bufValideLen)
    (hcopied : Holds p.memory p.bufTotalLen p.bufWritPtr data) :
    RingInv (p.writeUpdate data.length) (pending ++ data) := by
  have hread := hp.read
  have hwrit := hp.writ
  have hdata := hp.data
  have hsum := hp.sum
  have hbehind := hp.behind
  unfold Behind at hbehind
  refine ⟨hread, ?_, ?_, ?_, ?_, ?_, ?_⟩
  · simp only [PcmBufManager.writeUpdate]
    split_ifs <;> omega
  · simp only [PcmBufManager.writeUpdate, List.length_append]
    omega
  · simp only [PcmBufManager.writeUpdate]
    omega
  · simp only [PcmBufManager.writeUpdate]
    omega
  · simp only [PcmBufManager.writeUpdate, Behind, List.length_append]
    split_ifs <;> omega
  · exact hp.holds.append hcopied hread hwrit hp.behind (by omega)

lemma RingInv.readCopies (hp : RingInv p pending) {getLen : ℤ}
    (hsize : 0 ≤ sizeRead ∧ sizeRead ≤ p.dataLen) (hget : sizeRead ≤ getLen)
    {c : Copy} (hc : c ∈ p.readCopies sizeRead getLen) : c.Inside p.bufTotalLen := by
  have hread := hp.read
  have hsum := hp.sum
  have hvalide := hp.valide
  unfold PcmBufManager.readCopies at hc
  split_ifs at hc
  · rcases List.mem_cons.mp hc with rfl | hc
    · refine ⟨?_, ?_, ?_, ?_, ?_⟩ <;> simp only <;> omega
    · obtain rfl := List.mem_singleton.mp hc
      refine ⟨?_, ?_, ?_, ?_, ?_⟩ <;> simp only <;> omega
  · obtain rfl := List.mem_singleton.mp hc
    refine ⟨?_, ?_, ?_, ?_, ?_⟩ <;> simp only <;> omega

/-- The caller gets the bytes that are copied, in their order. -/
lemma load_readCopy (p : PcmBufManager) (pBuf : ℤ → UInt8) (hread : 0 ≤ p.bufReadPtr ∧
    p.bufReadPtr < p.bufTotalLen) (hsize : 0 ≤ sizeRead) :
    load (p.readCopy sizeRead pBuf) 0 sizeRead =
      copyOut p.memory p.bufTotalLen p.bufReadPtr sizeRead := by
  unfold PcmBufManager.readCopy copyOut
  split_ifs with hwrap
  · have happ := load_store_append pBuf (load p.memory p.bufReadPtr (p.bufTotalLen - p.bufReadPtr))
      (load p.memory 0 (sizeRead - (p.bufTotalLen - p.bufReadPtr)))
    have hlen₁ : ((p.bufTotalLen - p.bufReadPtr).toNat : ℤ) = p.bufTotalLen - p.bufReadPtr := by
      omega
    have hlen₂ : p.bufTotalLen - p.bufReadPtr +
        ((sizeRead - (p.bufTotalLen - p.bufReadPtr)).toNat : ℤ) = sizeRead := by omega
    simpa only [length_load, hlen₁, hlen₂] using happ
  · have hzero := load_store_zero pBuf (load p.memory p.bufReadPtr sizeRead)
    have hlen : (sizeRead.toNat : ℤ) = sizeRead := by omega
    simpa only [length_load, hlen] using hzero

lemma RingInv.readUpdate (hp : RingInv p pending) (hsize : 0 ≤ sizeRead ∧ sizeRead ≤ p.dataLen) :
    RingInv (p.readUpdate sizeRead) (pending.drop sizeRead.toNat) := by
  have hread := hp.read
  have hwrit := hp.writ
  have hdata := hp.data
  have hsum := hp.sum
  have hvalide := hp.valide
  have hbehind := hp.behind
  unfold Behind at hbehind
  have hmoved : 0 ≤ (p.readUpdate sizeRead).bufReadPtr ∧
      (p.readUpdate sizeRead).bufReadPtr < p.bufTotalLen ∧
      ((p.readUpdate sizeRead).bufReadPtr = p.bufReadPtr + sizeRead ∨
        (p.readUpdate sizeRead).bufReadPtr = p.bufReadPtr + sizeRead - p.bufTotalLen) := by
    simp only [PcmBufManager.readUpdate]
    split_ifs <;> omega
  refine ⟨⟨hmoved.1, hmoved.2.1⟩, hwrit, ?_, ?_, ?_, ?_, ?_⟩
  · simp only [PcmBufManager.readUpdate, List.length_drop]
    omega
  · simp only [PcmBufManager.readUpdate]
    omega
  · simp only [PcmBufManager.readUpdate]
    omega
  · obtain ⟨hge, hlt, hptr⟩ := hmoved
    have hw : (p.readUpdate sizeRead).bufWritPtr = p.bufWritPtr := rfl
    have hn : (p.readUpdate sizeRead).bufTotalLen = p.bufTotalLen := rfl
    unfold Behind
    rw [hw, hn, List.length_drop]
    rcases hptr with h | h
    · rw [h]
      omega
    · rw [h]
      omega
  · refine hp.holds.drop (by omega) hread ⟨hmoved.1, hmoved.2.1⟩ (by omega) ?_
    have hnat : ((sizeRead.toNat : ℕ) : ℤ) = sizeRead := by omega
    rw [hnat]
    exact hmoved.2.2

end Ring

/-! ## The two callers -/

/-- What the writer knows. -/
def WriterPc.Ready (p : PcmBufManager) : WriterPc → Prop
  | .idle => True
  | .tested data => (data.length : ℤ) ≤ p.bufValideLen
  | .copied data => (data.length : ℤ) ≤ p.bufValideLen ∧
      Holds p.memory p.bufTotalLen p.bufWritPtr data

/-- The sizes that the test of `ReadPcmData` computes. -/
structure Reading.Sized (r : Reading) (dataLen : ℤ) : Prop where
  nonneg : 0 ≤ r.sizeRead
  avail : r.sizeRead ≤ dataLen
  get : r.sizeRead ≤ r.getLen
  fill : if r.underflow then r.fillDcSize = r.getLen - r.sizeRead else r.sizeRead = r.getLen

/-- What the reader knows. -/
def ReaderPc.Ready (p : PcmBufManager) (pending : List UInt8) : ReaderPc → Prop
  | .idle => True
  | .tested r => r.Sized p.dataLen
  | .copied r => r.Sized p.dataLen ∧ r.real = pending.take r.sizeRead.toNat ∧
      load r.pBuf 0 r.sizeRead = r.real

/-- The real bytes come first, and the rest repeats one byte. -/
def ReadResult.Padded (x : ReadResult) : Prop :=
  x.real.length ≤ x.getLen ∧
    ∃ b, x.buf = x.real ++ List.replicate (x.getLen - x.real.length) b

/-- What runs keep, with what has been written and not been read. -/
structure Inv (s : State) (pending : List UInt8) : Prop where
  ring : RingInv s.pcm pending
  total : s.pcm.bufTotalLen = afBufferSize
  written : s.written = s.results.flatMap ReadResult.real ++ pending
  writer : s.writer.Ready s.pcm
  reader : s.reader.Ready s.pcm pending
  copies : ∀ c ∈ s.copies, c.Inside afBufferSize
  results : ∀ x ∈ s.results, x.Padded

lemma inv_opened (memory : ℤ → UInt8) : Inv (opened memory) [] := by
  have hsize : (0 : ℤ) ≤ 0 ∧ 0 < afBufferSize := by decide
  refine ⟨⟨hsize, ⟨hsize.1, Int.le_of_lt hsize.2⟩, rfl, Int.le_of_lt hsize.2, rfl, Or.inl rfl, ?_⟩,
    rfl, rfl, trivial, trivial, ?_, ?_⟩
  · intro k hk
    exact absurd hk (Nat.not_lt_zero k)
  · intro c hc
    exact absurd hc List.not_mem_nil
  · intro x hx
    exact absurd hx List.not_mem_nil

lemma load_fill {r : Reading} {dataLen : ℤ} (hr : r.Sized dataLen)
    (hreal : load r.pBuf 0 r.sizeRead = r.real) :
    ∃ b, load r.fill 0 r.getLen = r.real ++ List.replicate (r.getLen - r.real.length) b := by
  have hnonneg := hr.nonneg
  have hget := hr.get
  have hfill := hr.fill
  have hlen : r.real.length = r.sizeRead.toNat := by rw [← hreal, length_load]
  unfold Reading.fill
  cases hu : r.underflow with
  | false =>
    simp only [hu, Bool.false_eq_true, if_false] at hfill
    have hfull : r.getLen - r.real.length = 0 := by omega
    refine ⟨0, ?_⟩
    rw [hfull, List.replicate_zero, List.append_nil, ← hreal, hfill]
    rfl
  | true =>
    simp only [hu, if_true] at hfill ⊢
    refine ⟨r.pBuf (r.sizeRead - 1), ?_⟩
    have hpad : r.fillDcSize.toNat = r.getLen - r.real.length := by omega
    rw [hpad]
    refine List.ext_getElem (by simp; omega) fun k hk hk' => ?_
    rw [getElem_load]
    by_cases hlt : k < r.real.length
    · have hload : k < (load r.pBuf 0 r.sizeRead).length := by rw [length_load]; omega
      rw [List.getElem_append_left hlt, store_off _ _ (Or.inl (by omega))]
      simp only [← hreal]
      rw [getElem_load r.pBuf 0 r.sizeRead hload]
    · have hk₂ : k - r.real.length <
          (List.replicate (r.getLen - r.real.length) (r.pBuf (r.sizeRead - 1))).length := by
        simp at hk' ⊢
        omega
      have hidx : (0 : ℤ) + (k : ℤ) = r.sizeRead + ((k - r.real.length : ℕ) : ℤ) := by omega
      rw [List.getElem_append_right (by omega), hidx, store_at _ _ hk₂]

section Steps

variable {s s' : State} {pending : List UInt8}

lemma Inv.tested {data : List UInt8} (hs : Inv s pending) (hw : s.writer = .tested data) :
    (data.length : ℤ) ≤ s.pcm.bufValideLen := by
  have hready := hs.writer
  rw [hw] at hready
  exact hready

lemma Inv.writeStep {a : Act} (hs : Inv s pending)
    (ha : (∃ data, a = .writeTest data) ∨ a = .writeCopy ∨ a = .writeUpdate)
    (hstep : s.step a = some s') : ∃ pending', Inv s' pending' := by
  rcases ha with ⟨data, rfl⟩ | rfl | rfl
  · simp only [State.step] at hstep
    split at hstep
    swap
    · cases hstep
    split_ifs at hstep with hfit
    · obtain rfl := Option.some.inj hstep
      exact ⟨pending, hs⟩
    · obtain rfl := Option.some.inj hstep
      exact ⟨pending, hs.ring, hs.total, hs.written, Int.not_lt.mp hfit, hs.reader, hs.copies,
        hs.results⟩
  · simp only [State.step] at hstep
    split at hstep
    swap
    · cases hstep
    rename_i data hw
    obtain rfl := Option.some.inj hstep
    have hfit := hs.tested hw
    obtain ⟨hring, hholds⟩ := hs.ring.writeCopy hfit
    have heq := writeCopy_eq s.pcm data
    refine ⟨pending, hring, ?_, hs.written, ?_, ?_, fun c hc => ?_, hs.results⟩
    · rw [heq]
      exact hs.total
    · rw [heq] at hholds ⊢
      exact ⟨hfit, hholds⟩
    · rw [heq]
      have hreader := hs.reader
      cases hr : s.reader with
      | idle => exact trivial
      | tested r =>
        rw [hr] at hreader
        exact hreader
      | copied r =>
        rw [hr] at hreader
        exact hreader
    · rcases List.mem_append.mp hc with hc | hc
      · rw [← hs.total]
        exact hs.ring.writeCopies hfit hc
      · exact hs.copies c hc
  · simp only [State.step] at hstep
    split at hstep
    swap
    · cases hstep
    rename_i data hw
    obtain rfl := Option.some.inj hstep
    have hready : s.writer.Ready s.pcm := hs.writer
    rw [hw] at hready
    refine ⟨pending ++ data, hs.ring.writeUpdate hready.1 hready.2, hs.total, ?_, trivial, ?_,
      hs.copies, hs.results⟩
    · rw [hs.written, List.append_assoc]
    · have hreader := hs.reader
      have hdata := hs.ring.data
      have hmore : ∀ r : Reading, r.Sized s.pcm.dataLen →
          r.Sized (s.pcm.writeUpdate data.length).dataLen := by
        intro r hr
        refine ⟨hr.nonneg, ?_, hr.get, hr.fill⟩
        have havail := hr.avail
        simp only [PcmBufManager.writeUpdate]
        omega
      cases hr : s.reader with
      | idle => exact trivial
      | tested r =>
        rw [hr] at hreader
        exact hmore r hreader
      | copied r =>
        rw [hr] at hreader
        obtain ⟨hsized, hreal, hload⟩ := hreader
        refine ⟨hmore r hsized, ?_, hload⟩
        have havail := hsized.avail
        rw [hreal, List.take_append_of_le_length (by omega)]

lemma Inv.readStep {a : Act} (hs : Inv s pending)
    (ha : (∃ n b x y, a = .readTest n b x y) ∨ a = .readCopy ∨ a = .readUpdate)
    (hstep : s.step a = some s') : ∃ pending', Inv s' pending' := by
  have hdata := hs.ring.data
  rcases ha with ⟨getLen, pBuf, active, timedOut, rfl⟩ | rfl | rfl
  · simp only [State.step] at hstep
    split at hstep
    swap
    · cases hstep
    split_ifs at hstep with hshort hwait
    · obtain rfl := Option.some.inj hstep
      refine ⟨pending, hs.ring, hs.total, hs.written, hs.writer, ⟨?_, Int.le_refl _, ?_, ?_⟩,
        hs.copies, hs.results⟩
      · simp only
        omega
      · exact Int.le_of_lt hshort
      · simp
    · obtain rfl := Option.some.inj hstep
      refine ⟨pending, hs.ring, hs.total, hs.written, hs.writer, ⟨?_, ?_, Int.le_refl _, ?_⟩,
        hs.copies, hs.results⟩
      · simp
      · exact Int.not_lt.mp hshort
      · simp
  · simp only [State.step] at hstep
    split at hstep
    swap
    · cases hstep
    rename_i r hr
    obtain rfl := Option.some.inj hstep
    have hsized : s.reader.Ready s.pcm pending := hs.reader
    rw [hr] at hsized
    have havail := hsized.avail
    have hnonneg := hsized.nonneg
    refine ⟨pending, hs.ring, hs.total, hs.written, hs.writer, ⟨?_, ?_, ?_⟩, fun c hc => ?_,
      hs.results⟩
    · exact ⟨hsized.nonneg, hsized.avail, hsized.get, hsized.fill⟩
    · exact hs.ring.holds.copyOut hs.ring.read ⟨hnonneg, by omega⟩
    · exact load_readCopy s.pcm r.pBuf hs.ring.read hnonneg
    · rcases List.mem_append.mp hc with hc | hc
      · rw [← hs.total]
        exact hs.ring.readCopies ⟨hnonneg, havail⟩ hsized.get hc
      · exact hs.copies c hc
  · simp only [State.step] at hstep
    split at hstep
    · cases hstep
    · rename_i r hr hnot
      obtain rfl := Option.some.inj hstep
      have hready : s.reader.Ready s.pcm pending := hs.reader
      rw [hr] at hready
      obtain ⟨hsized, hreal, hload⟩ := hready
      have havail := hsized.avail
      have hnonneg := hsized.nonneg
      have hget := hsized.get
      refine ⟨pending.drop r.sizeRead.toNat, hs.ring.readUpdate ⟨hnonneg, havail⟩, hs.total, ?_, ?_,
        trivial, hs.copies, fun x hx => ?_⟩
      · rw [hs.written, List.flatMap_append, List.append_assoc]
        simp [hreal]
      · cases hw : s.writer with
        | idle => exact trivial
        | tested data =>
          have hfit := hs.tested hw
          simp only [WriterPc.Ready, PcmBufManager.readUpdate]
          omega
        | copied data => exact absurd hw (hnot data)
      · rcases List.mem_append.mp hx with hx | hx
        · exact hs.results x hx
        · obtain rfl := List.mem_singleton.mp hx
          have hlen : r.real.length = r.sizeRead.toNat := by rw [← hload, length_load]
          refine ⟨?_, load_fill hsized hload⟩
          simp only [hlen]
          omega
    · cases hstep

/-- The step lemma. -/
lemma Inv.step {a : Act} (hs : Inv s pending) (hstep : s.step a = some s') :
    ∃ pending', Inv s' pending' := by
  cases a with
  | writeTest data => exact hs.writeStep (Or.inl ⟨_, rfl⟩) hstep
  | writeCopy => exact hs.writeStep (Or.inr (Or.inl rfl)) hstep
  | writeUpdate => exact hs.writeStep (Or.inr (Or.inr rfl)) hstep
  | readTest n b x y => exact hs.readStep (Or.inl ⟨_, _, _, _, rfl⟩) hstep
  | readCopy => exact hs.readStep (Or.inr (Or.inl rfl)) hstep
  | readUpdate => exact hs.readStep (Or.inr (Or.inr rfl)) hstep

end Steps

/-- **The ring is a queue.**  In every state of every run from a fresh ring the lengths add up, the
pointers are in the ring, and every copy so far was inside the ring and the bytes of its caller;
what the reads have returned, without their padding, is a prefix of what has been written; a read
has its real bytes in front of the padding; and a write that does not fit changes nothing. -/
theorem afRing_fifo (memory : ℤ → UInt8) (s : State)
    (hrun : Runs State.step (fun _ _ => True) (opened memory) s) :
    (s.pcm.dataLen + s.pcm.bufValideLen = s.pcm.bufTotalLen ∧ 0 ≤ s.pcm.dataLen ∧
      0 ≤ s.pcm.bufValideLen) ∧
    (0 ≤ s.pcm.bufReadPtr ∧ s.pcm.bufReadPtr < s.pcm.bufTotalLen) ∧
    (0 ≤ s.pcm.bufWritPtr ∧ s.pcm.bufWritPtr ≤ s.pcm.bufTotalLen) ∧
    s.pcm.bufTotalLen = afBufferSize ∧ (∀ c ∈ s.copies, c.Inside afBufferSize) ∧
    s.results.flatMap ReadResult.real <+: s.written ∧ (∀ x ∈ s.results, x.Padded) ∧
    ∀ data s', s.pcm.bufValideLen < data.length → s.step (.writeTest data) = some s' → s' = s := by
  have hinv : ∃ pending, Inv s pending :=
    Runs.invariant (P := fun s => ∃ pending, Inv s pending)
      (fun ⟨_, hs⟩ _ hstep => hs.step hstep) ⟨[], inv_opened memory⟩ hrun
  obtain ⟨pending, hs⟩ := hinv
  have hdata := hs.ring.data
  refine ⟨⟨hs.ring.sum, by omega, hs.ring.valide⟩, hs.ring.read, hs.ring.writ, hs.total, hs.copies,
    ⟨pending, hs.written.symm⟩, hs.results, fun data s' hfull hstep => ?_⟩
  simp only [State.step, if_pos hfull] at hstep
  split at hstep
  · exact (Option.some.inj hstep).symm
  · cases hstep

/-- Three bytes are written; a read of two and one of two that has to be padded. -/
theorem afRing_fifo_padded : ∃ s : State,
    Runs State.step (fun _ _ => True) (opened fun _ => 0) s ∧ s.written = [1, 2, 3] ∧
      s.results.map ReadResult.buf = [[1, 2], [3, 3]] ∧
      s.results.flatMap ReadResult.real <+: s.written := by
  obtain ⟨s, hrun, hwritten, hresults⟩ := exists_runs State.step (fun _ _ => True)
    (fun s => s.written = [1, 2, 3] ∧ s.results.map ReadResult.buf = [[1, 2], [3, 3]])
    (s := opened fun _ => 0)
    [.writeTest [1, 2, 3], .writeCopy, .writeUpdate, .readTest 2 (fun _ => 9) false false,
      .readCopy, .readUpdate, .readTest 2 (fun _ => 9) false false, .readCopy, .readUpdate]
    (by decide +kernel)
  exact ⟨s, hrun, hwritten, hresults, (afRing_fifo _ s hrun).2.2.2.2.2.1⟩

end Softwinner.Audio.AfRing

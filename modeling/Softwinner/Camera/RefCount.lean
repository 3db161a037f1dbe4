import Softwinner.Camera.Device

/-!
# Reference counts inside a session

Within one streaming session, `mV4l2buf[i].refCnt` counts the holders of buffer `i`: the capture
thread until it has dropped its own reference, the queues, the threads behind them, and the
encoder.  `Balance` is the part of the invariant that speaks of counts only, for an arbitrary
function from buffers to numbers of holders; the three operations of the source on a count keep
it.  `SessionInv` instantiates it with `State.holders`, and adds what the threads need to find
their buffer again.
-/

namespace Softwinner.Camera

variable {s s' s₀ : State} {i j : Fin nbBuffer} {e : Entry} {h h' : Fin nbBuffer → ℕ}

/-! ## Holders -/

/-- How many of the entries point to buffer `i`. -/
def refs (i : Fin nbBuffer) (l : List Entry) : ℕ := l.countP fun e => e.ptr = .buf i

@[simp] lemma refs_nil (i : Fin nbBuffer) : refs i [] = 0 := rfl

@[simp] lemma refs_cons (i : Fin nbBuffer) (e : Entry) (l : List Entry) :
    refs i (e :: l) = refs i l + if e.ptr = .buf i then 1 else 0 := by
  simp [refs, List.countP_cons]

@[simp] lemma refs_append (i : Fin nbBuffer) (l l' : List Entry) :
    refs i (l ++ l') = refs i l + refs i l' := List.countP_append

lemma refs_erase {l : List Entry} (he : e ∈ l) (i : Fin nbBuffer) :
    refs i l = refs i (l.erase e) + if e.ptr = .buf i then 1 else 0 := by
  rw [← refs_cons]
  exact (List.perm_cons_erase he).countP_eq _

lemma refs_pos {l : List Entry} (he : e ∈ l) (hp : e.ptr = .buf i) : 0 < refs i l :=
  List.countP_pos_iff.mpr ⟨e, he, by simpa using hp⟩

/-- The reference of the capture thread. -/
def CapturePc.refs (i : Fin nbBuffer) : CapturePc → ℕ
  | .release j => if j = i then 1 else 0
  | _ => 0

/-- The entry in the hands of a thread. -/
def PreviewPc.entries : PreviewPc → List Entry
  | .idle => []
  | .got e | .checked e | .called e => [e]

def PicturePc.entries : PicturePc → List Entry
  | .idle => []
  | .got e | .taken e | .release e _ => [e]

def SmartPc.entries : SmartPc → List Entry
  | .idle => []
  | .got e | .blink e | .smile e | .taken e | .release e _ => [e]

def ContinuousPc.entries : ContinuousPc → List Entry
  | .idle => []
  | .got e | .checked e | .done e => [e]

namespace State

/-- The picture entries whose end depends on `mIsPicCopy`. -/
def pictures (s : State) : List Entry :=
  s.queueBufferPicture ++ s.picture.entries ++ s.smart.entries

/-- All references but the one of the capture thread. -/
def entries (s : State) : List Entry :=
  s.queueBufferPreview ++ s.preview.entries ++ s.pictures ++ s.continuous.entries ++ s.encoder

/-- The number of holders of a buffer. -/
def holders (s : State) (i : Fin nbBuffer) : ℕ :=
  refs i s.entries + s.capture.refs i

end State

/-! ## Balance -/

/-- A buffer that the session has not taken from the driver yet. -/
structure Untouched (s₀ s : State) (h : Fin nbBuffer → ℕ) (i : Fin nbBuffer) : Prop where
  dqbufs : s.dqbufs i = 0
  qbufs : s.qbufs i = 0
  holders : h i = 0
  refCnt : (s.v4l2buf i).refCnt = (s₀.v4l2buf i).refCnt

/-- A buffer that it has: the driver has it again exactly if it has no holder. -/
structure Counted (s : State) (h : Fin nbBuffer → ℕ) (i : Fin nbBuffer) : Prop where
  dqbufs : 0 < s.dqbufs i
  refCnt : (s.v4l2buf i).refCnt = h i
  qbufs : s.dqbufs i = s.qbufs i + if 0 < h i then 1 else 0
  driver : i ∈ s.driver ↔ h i = 0
  index : (s.v4l2buf i).index = i
  addr : (s.v4l2buf i).addrPhyY ≠ 0
  mapped : s.mapMem i = true

/-- The counts of a state in which buffer `i` has `h i` holders. -/
structure Balance (s₀ s : State) (h : Fin nbBuffer → ℕ) : Prop where
  avail : s.curAvailBufferCnt = s.driver.card
  mapped : ∀ i ∈ s.driver, s.mapMem i = true
  buffers : ∀ i, Untouched s₀ s h i ∨ Counted s h i

lemma Balance.counted (hb : Balance s₀ s h) (hi : 0 < h i) : Counted s h i := by
  rcases hb.buffers i with hun | hc
  · have := hun.holders
    omega
  · exact hc

/-- A buffer of the driver has no holder. -/
lemma Balance.holders_eq_zero (hb : Balance s₀ s h) (hi : i ∈ s.driver) : h i = 0 := by
  rcases hb.buffers i with hun | hc
  · exact hun.holders
  · exact hc.driver.mp hi

/-- Only the buffer in question changes. -/
lemma Balance.of_update (hb : Balance s₀ s h) (havail : s'.curAvailBufferCnt = s'.driver.card)
    (hmapMem : s'.mapMem = s.mapMem) (hdriver : ∀ j, j ≠ i → (j ∈ s'.driver ↔ j ∈ s.driver))
    (hbuf : ∀ j, j ≠ i → s'.v4l2buf j = s.v4l2buf j)
    (hdq : ∀ j, j ≠ i → s'.dqbufs j = s.dqbufs j) (hq : ∀ j, j ≠ i → s'.qbufs j = s.qbufs j)
    (hh : ∀ j, j ≠ i → h' j = h j) (hi : Counted s' h' i) : Balance s₀ s' h' := by
  refine ⟨havail, fun j hj => ?_, fun j => ?_⟩
  · by_cases hji : j = i
    · rw [hji]
      exact hi.mapped
    · rw [hmapMem]
      exact hb.mapped j ((hdriver j hji).mp hj)
  · by_cases hji : j = i
    · rw [hji]
      exact Or.inr hi
    · rcases hb.buffers j with hun | hc
      · left
        refine ⟨?_, ?_, ?_, ?_⟩
        · rw [hdq j hji]
          exact hun.dqbufs
        · rw [hq j hji]
          exact hun.qbufs
        · rw [hh j hji]
          exact hun.holders
        · rw [hbuf j hji]
          exact hun.refCnt
      · right
        refine ⟨?_, ?_, ?_, ?_, ?_, ?_, ?_⟩
        · rw [hdq j hji]
          exact hc.dqbufs
        · rw [hbuf j hji, hh j hji]
          exact hc.refCnt
        · rw [hdq j hji, hq j hji, hh j hji]
          exact hc.qbufs
        · rw [hdriver j hji, hh j hji]
          exact hc.driver
        · rw [hbuf j hji]
          exact hc.index
        · rw [hbuf j hji]
          exact hc.addr
        · rw [hmapMem]
          exact hc.mapped

/-- A frame is taken from the driver. -/
lemma Balance.fill (hb : Balance s₀ s h) (hi : i ∈ s.driver) {addr : ℕ} (haddr : addr ≠ 0)
    (hone : h' i = 1) (hh : ∀ j, j ≠ i → h' j = h j) : Balance s₀ (s.fill i addr) h' := by
  have hzero := hb.holders_eq_zero hi
  have hsame : s.dqbufs i = s.qbufs i := by
    rcases hb.buffers i with hun | hc
    · rw [hun.dqbufs, hun.qbufs]
    · have hq := hc.qbufs
      rw [hzero] at hq
      simpa using hq
  refine hb.of_update ?_ rfl ?_ ?_ ?_ (fun _ _ => rfl) hh ?_
  · simp only [State.fill]
    rw [Finset.card_erase_of_mem hi, hb.avail]
    have hpos : 0 < s.driver.card := Finset.card_pos.mpr ⟨i, hi⟩
    omega
  · intro j hji
    simp [State.fill, hji]
  · intro j hji
    simp [State.fill, hji]
  · intro j hji
    simp [State.fill, hji]
  · refine ⟨?_, ?_, ?_, ?_, ?_, ?_, hb.mapped i hi⟩
    · simp [State.fill]
    · simp [State.fill, hone]
    · simp [State.fill, hone, hsame]
    · simp [State.fill, hone]
    · simp [State.fill]
    · simpa [State.fill] using haddr

/-- A further reference to a buffer in use. -/
lemma Balance.addRef (hb : Balance s₀ s h) (hi : 0 < h i) (hone : h' i = h i + 1)
    (hh : ∀ j, j ≠ i → h' j = h j) : Balance s₀ (s.addRef i) h' := by
  have hc := hb.counted hi
  have hq := hc.qbufs
  have hdriver := hc.driver
  refine hb.of_update hb.avail rfl (fun _ _ => Iff.rfl) ?_ (fun _ _ => rfl) (fun _ _ => rfl) hh ?_
  · intro j hji
    simp [State.addRef, hji]
  · refine ⟨hc.dqbufs, ?_, ?_, ?_, ?_, ?_, hc.mapped⟩
    · simp [State.addRef, hc.refCnt, hone]
    · rw [if_pos hi] at hq
      rw [if_pos (by omega)]
      exact hq
    · change i ∈ s.driver ↔ h' i = 0
      rw [hdriver, hone]
      omega
    · simpa [State.addRef] using hc.index
    · simpa [State.addRef] using hc.addr

/-- A reference is dropped; with the last one the buffer goes back to the driver. -/
lemma Balance.release (hb : Balance s₀ s h) (hone : h i = h' i + 1)
    (hh : ∀ j, j ≠ i → h' j = h j) : Balance s₀ (s.releasePreviewFrame i true) h' := by
  have hc := hb.counted (show 0 < h i by omega)
  have href := hc.refCnt
  have hq := hc.qbufs
  have hout : i ∉ s.driver := by
    rw [hc.driver]
    omega
  rw [if_pos (by omega)] at hq
  have hpos : 0 < (s.v4l2buf i).refCnt := by omega
  unfold State.releasePreviewFrame
  simp only [if_pos hpos, and_true]
  by_cases hlast : (s.v4l2buf i).refCnt - 1 = 0
  · rw [if_pos hlast]
    refine hb.of_update ?_ rfl ?_ ?_ (fun _ _ => rfl) ?_ hh ?_
    · simp only
      rw [Finset.card_insert_of_notMem hout, hb.avail]
      push_cast
      rfl
    · intro j hji
      simp [hji]
    · intro j hji
      simp [hji]
    · intro j hji
      simp [hji]
    · refine ⟨hc.dqbufs, ?_, ?_, ?_, ?_, ?_, hc.mapped⟩
      · simp only [Function.update_self]
        omega
      · simp only [Function.update_self]
        rw [if_neg (by omega)]
        exact hq
      · simp only [Finset.mem_insert, true_or, true_iff]
        omega
      · simpa using hc.index
      · simpa using hc.addr
  · rw [if_neg hlast]
    refine hb.of_update hb.avail rfl (fun _ _ => Iff.rfl) ?_ (fun _ _ => rfl) (fun _ _ => rfl) hh ?_
    · intro j hji
      simp [hji]
    · refine ⟨hc.dqbufs, ?_, ?_, ?_, ?_, ?_, hc.mapped⟩
      · simp only [Function.update_self]
        omega
      · rw [if_pos (by omega)]
        exact hq
      · refine iff_of_false hout ?_
        omega
      · simpa using hc.index
      · simpa using hc.addr

/-! ## The invariant of a session -/

/-- Two states with the same buffers and counts. -/
structure SameBuffers (s s' : State) : Prop where
  v4l2buf : s'.v4l2buf = s.v4l2buf
  driver : s'.driver = s.driver
  avail : s'.curAvailBufferCnt = s.curAvailBufferCnt
  mapMem : s'.mapMem = s.mapMem
  dqbufs : s'.dqbufs = s.dqbufs
  qbufs : s'.qbufs = s.qbufs

lemma Balance.congr (hb : Balance s₀ s h) (hsame : SameBuffers s s') (hh : ∀ i, h' i = h i) :
    Balance s₀ s' h' := by
  obtain rfl : h' = h := funext hh
  refine ⟨?_, ?_, fun i => ?_⟩
  · rw [hsame.avail, hsame.driver]
    exact hb.avail
  · rw [hsame.driver, hsame.mapMem]
    exact hb.mapped
  · rcases hb.buffers i with hun | hc
    · left
      constructor
      · rw [hsame.dqbufs]
        exact hun.dqbufs
      · rw [hsame.qbufs]
        exact hun.qbufs
      · exact hun.holders
      · rw [hsame.v4l2buf]
        exact hun.refCnt
    · right
      constructor
      · rw [hsame.dqbufs]
        exact hc.dqbufs
      · rw [hsame.v4l2buf]
        exact hc.refCnt
      · rw [hsame.dqbufs, hsame.qbufs]
        exact hc.qbufs
      · rw [hsame.driver]
        exact hc.driver
      · rw [hsame.v4l2buf]
        exact hc.index
      · rw [hsame.v4l2buf]
        exact hc.addr
      · rw [hsame.mapMem]
        exact hc.mapped

/-- What the threads know about their entries. -/
structure ThreadInv (s : State) : Prop where
  mode : s.takePictureState ≠ .normal
  entries : ∀ e ∈ s.entries, e.ptr ≠ .pic
  /-- The flag was cleared when the entry was queued. -/
  flag : s.pictures ≠ [] → s.isPicCopy = false
  picture : ∀ e i, s.picture = .release e i → e.ptr = .buf i
  smart : ∀ e i, s.smart = .release e i → e.ptr = .buf i

/-- The invariant of a session that started in `s₀`. -/
structure SessionInv (s₀ s : State) : Prop extends ThreadInv s where
  balance : Balance s₀ s s.holders

/-- `s'` has no entries, requests or releases that `s` does not have. -/
structure Fewer (s s' : State) : Prop where
  mode : s'.takePictureState = s.takePictureState ∨ s'.takePictureState = .null
  entries : ∀ e ∈ s'.entries, e ∈ s.entries
  pictures : s'.pictures ≠ [] → s.pictures ≠ []
  flag : s'.isPicCopy = s.isPicCopy
  picture : s'.picture = s.picture ∨ ∀ e i, s'.picture ≠ .release e i
  smart : s'.smart = s.smart ∨ ∀ e i, s'.smart ≠ .release e i

lemma ThreadInv.fewer (hs : ThreadInv s) (hf : Fewer s s') : ThreadInv s' := by
  refine ⟨?_, fun e he => hs.entries e (hf.entries e he), fun hne => ?_, fun e i hp => ?_,
    fun e i hp => ?_⟩
  · rcases hf.mode with hm | hm
    · rw [hm]
      exact hs.mode
    · rw [hm]
      decide
  · rw [hf.flag]
    exact hs.flag (hf.pictures hne)
  · rcases hf.picture with hsame | hno
    · exact hs.picture e i (hsame ▸ hp)
    · exact absurd hp (hno e i)
  · rcases hf.smart with hsame | hno
    · exact hs.smart e i (hsame ▸ hp)
    · exact absurd hp (hno e i)

/-- Entries that only change hands. -/
lemma SessionInv.moved (hs : SessionInv s₀ s) (hf : Fewer s s') (hsame : SameBuffers s s')
    (hcount : ∀ i, s'.holders i = s.holders i) : SessionInv s₀ s' :=
  ⟨hs.toThreadInv.fewer hf, hs.balance.congr hsame hcount⟩

/-- A thread drops its reference. -/
lemma SessionInv.dropped (hs : SessionInv s₀ s) (hf : Fewer s s')
    (hsame : SameBuffers (s.releasePreviewFrame i true) s')
    (hcount : ∀ j, s.holders j = s'.holders j + if j = i then 1 else 0) : SessionInv s₀ s' := by
  refine ⟨hs.toThreadInv.fewer hf, ?_⟩
  have hb : Balance s₀ (s.releasePreviewFrame i true) s'.holders := by
    refine hs.balance.release ?_ fun j hji => ?_
    · simpa using hcount i
    · simpa [hji] using (hcount j).symm
  exact hb.congr hsame fun _ => rfl

/-- The buffer of an entry can be found, and is counted. -/
lemma SessionInv.counted (hs : SessionInv s₀ s) (he : e ∈ s.entries) :
    ∃ i, e.ptr = .buf i ∧ (s.deref e.ptr).index = i ∧ 0 < s.holders i ∧ ¬ s.Released e := by
  cases hp : e.ptr with
  | pic => exact absurd hp (hs.entries e he)
  | buf i =>
    have hpos : 0 < s.holders i := by
      have hpos := refs_pos he hp
      unfold State.holders
      omega
    have hc := hs.balance.counted hpos
    refine ⟨i, rfl, hc.index, hpos, ?_⟩
    unfold State.Released
    rw [hp, State.deref, hc.index, hc.mapped]
    simpa using hc.addr

/-- A release changes buffers and counts only. -/
lemma exists_release_eq (s : State) (i : Fin nbBuffer) (ok : Bool) :
    ∃ v d c q, s.releasePreviewFrame i ok =
      { s with v4l2buf := v, driver := d, curAvailBufferCnt := c, qbufs := q } := by
  unfold State.releasePreviewFrame
  simp only
  split_ifs
  · exact ⟨_, _, _, _, rfl⟩
  · exact ⟨_, s.driver, s.curAvailBufferCnt, s.qbufs, rfl⟩
  · exact ⟨s.v4l2buf, s.driver, s.curAvailBufferCnt, s.qbufs, rfl⟩

/-- A thread releases its buffer and is done with it; `f` is what it changes beside the buffers. -/
lemma SessionInv.released (hs : SessionInv s₀ s) (f : State → State)
    (hf : ∀ v d c q,
      f { s with v4l2buf := v, driver := d, curAvailBufferCnt := c, qbufs := q } =
        { f s with v4l2buf := v, driver := d, curAvailBufferCnt := c, qbufs := q })
    (hsame : SameBuffers (s.releasePreviewFrame i true) (f (s.releasePreviewFrame i true)))
    (hfewer : Fewer s (f s))
    (hcount : ∀ j, s.holders j = (f s).holders j + if j = i then 1 else 0) :
    SessionInv s₀ (f (s.releasePreviewFrame i true)) := by
  obtain ⟨v, d, c, q, heq⟩ := exists_release_eq s i true
  have hafter : f (s.releasePreviewFrame i true) =
      { f s with v4l2buf := v, driver := d, curAvailBufferCnt := c, qbufs := q } := by
    rw [heq, hf]
  refine hs.dropped (i := i) ?_ hsame ?_
  · rw [hafter]
    exact ⟨hfewer.mode, hfewer.entries, hfewer.pictures, hfewer.flag, hfewer.picture, hfewer.smart⟩
  · rw [hafter]
    exact hcount

/-! ## The steps of a session -/

/-- The actions of a session without `NORMAL` pictures, in which the driver takes back every
buffer and has no frame at physical address 0. -/
def SessionOk (a : Act) (_ : State) : Prop :=
  match a with
  | .startDevice _ | .stopDevice => False
  | .setTakePictureState t => t ≠ .normal
  | .captureFrame _ f => f.addrPhyY ≠ 0
  | .captureRelease ok | .previewRelease ok | .pictureRelease ok | .smartRelease ok
  | .continuousRelease ok | .encoderRelease _ ok => ok = true
  | _ => True

/-- A further reference to a buffer that the capture thread holds. -/
lemma SessionInv.queued (hs : SessionInv s₀ s) (hpos : 0 < s.holders i)
    (hsame : SameBuffers (s.addRef i) s')
    (hcount : ∀ j, s'.holders j = s.holders j + if j = i then 1 else 0) :
    Balance s₀ s' s'.holders := by
  have hb : Balance s₀ (s.addRef i) s'.holders := by
    refine hs.balance.addRef hpos ?_ fun j hji => ?_
    · simpa using hcount i
    · simpa [hji] using hcount j
  exact hb.congr hsame fun _ => rfl

lemma SessionInv.queuePreview (hs : SessionInv s₀ s) (hcap : s.capture = .release i)
    (hq : s.queuePreview i = some s') :
    SessionInv s₀ s' ∧ s'.capture = .release i := by
  obtain ⟨q, hpush, rfl⟩ := Option.map_eq_some_iff.mp hq
  obtain ⟨-, rfl⟩ := push_eq_some.mp hpush
  have hpos : 0 < s.holders i := by simp [State.holders, hcap, CapturePc.refs]
  refine ⟨⟨⟨hs.mode, ?_, hs.flag, hs.picture, hs.smart⟩, ?_⟩, hcap⟩
  · intro e he
    have hold := hs.entries e
    simp only [State.entries, State.pictures, State.addRef, List.mem_append, List.mem_singleton,
      State.entry] at he hold
    by_cases hnew : e = ⟨.buf i, .preview, s.session, s.frames⟩
    · rw [hnew]
      simp
    · exact hold (by tauto)
  · refine hs.queued hpos ⟨rfl, rfl, rfl, rfl, rfl, rfl⟩ fun j => ?_
    simp only [State.holders, State.entries, State.pictures, State.addRef, State.entry, refs_append,
      refs_cons, refs_nil, Ptr.buf.injEq, eq_comm (a := i)]
    omega

lemma SessionInv.queuePicture {k : Kind} (hs : SessionInv s₀ s) (hcap : s.capture = .release i)
    (hq : s.queuePicture i k = some s') : SessionInv s₀ s' := by
  obtain ⟨q, hpush, rfl⟩ := Option.map_eq_some_iff.mp hq
  obtain ⟨-, rfl⟩ := push_eq_some.mp hpush
  have hpos : 0 < s.holders i := by simp [State.holders, hcap, CapturePc.refs]
  refine ⟨⟨hs.mode, ?_, fun _ => rfl, hs.picture, hs.smart⟩, ?_⟩
  · intro e he
    have hold := hs.entries e
    simp only [State.entries, State.pictures, State.addRef, List.mem_append, List.mem_singleton,
      State.entry] at he hold
    by_cases hnew : e = ⟨.buf i, k, s.session, s.frames⟩
    · rw [hnew]
      simp
    · exact hold (by tauto)
  · refine hs.queued hpos ⟨rfl, rfl, rfl, rfl, rfl, rfl⟩ fun j => ?_
    simp only [State.holders, State.entries, State.pictures, State.addRef, State.entry, refs_append,
      refs_cons, refs_nil, Ptr.buf.injEq, eq_comm (a := i)]
    omega

lemma SessionInv.queueFrame (hs : SessionInv s₀ s) (hcap : s.capture = .release i) (f : Frame) :
    SessionInv s₀ (s.queueFrame i f) := by
  unfold State.queueFrame
  cases hprev : s.queuePreview i with
  | none => exact hs
  | some s₁ =>
    obtain ⟨hs₁, hcap₁⟩ := hs.queuePreview hcap hprev
    have hpicture : ∀ k, SessionInv s₀ ((s₁.queuePicture i k).getD s₁) := by
      intro k
      cases hq : s₁.queuePicture i k with
      | none => exact hs₁
      | some s₂ => exact hs₁.queuePicture hcap₁ hq
    cases hmode : s₁.takePictureState with
    | null | normal =>
      simp only [hmode]
      exact hs₁
    | fast | record =>
      simp only [hmode]
      split_ifs
      · exact hs₁
      cases hq : s₁.queuePicture i .single with
      | none => exact hs₁
      | some s₂ =>
        have hs₂ := hs₁.queuePicture hcap₁ hq
        refine hs₂.moved ⟨Or.inr rfl, fun _ he => he, id, rfl, Or.inl rfl, Or.inl rfl⟩
          ⟨rfl, rfl, rfl, rfl, rfl, rfl⟩ fun _ => rfl
    | smart =>
      simp only [hmode]
      exact hpicture .smart
    | continuous | continuousFast =>
      simp only [hmode]
      split_ifs
      · exact hpicture .burst
      · exact hs₁

lemma SessionInv.captureFrame (hs : SessionInv s₀ s) (hidle : s.capture = .idle)
    (hi : i ∈ s.driver) (f : Frame) (haddr : f.addrPhyY ≠ 0) :
    SessionInv s₀ (s.captureFrame i f) := by
  have hmode : ¬ (s.fill i f.addrPhyY).takePictureState = .normal := hs.mode
  unfold State.captureFrame
  simp only [if_neg hmode]
  refine SessionInv.queueFrame ?_ rfl f
  have hzero := hs.balance.holders_eq_zero hi
  refine ⟨⟨hs.mode, hs.entries, hs.flag, hs.picture, hs.smart⟩, ?_⟩
  have hcount : ∀ j, ({ s.fill i f.addrPhyY with capture := .release i } : State).holders j =
      s.holders j + if j = i then 1 else 0 := by
    intro j
    simp only [State.holders, State.entries, State.pictures, State.fill, hidle, CapturePc.refs,
      eq_comm (a := i)]
    omega
  have hb : Balance s₀ (s.fill i f.addrPhyY)
      ({ s.fill i f.addrPhyY with capture := .release i } : State).holders := by
    refine hs.balance.fill hi haddr ?_ fun j hji => ?_
    · rw [hcount, hzero, if_pos rfl]
    · rw [hcount, if_neg hji, Nat.add_zero]
  exact hb.congr ⟨rfl, rfl, rfl, rfl, rfl, rfl⟩ fun _ => rfl

/-- Where every entry is, for the simplifier. -/
lemma State.mem_entries : e ∈ s.entries ↔ e ∈ s.queueBufferPreview ∨ e ∈ s.preview.entries ∨
    e ∈ s.queueBufferPicture ∨ e ∈ s.picture.entries ∨ e ∈ s.smart.entries ∨
    e ∈ s.continuous.entries ∨ e ∈ s.encoder := by
  simp only [State.entries, State.pictures, List.mem_append]
  tauto

lemma State.holders_eq : s.holders i = refs i s.queueBufferPreview + refs i s.preview.entries +
    refs i s.queueBufferPicture + refs i s.picture.entries + refs i s.smart.entries +
    refs i s.continuous.entries + refs i s.encoder + s.capture.refs i := by
  simp only [State.holders, State.entries, State.pictures, refs_append]
  omega

lemma State.pictures_eq_nil : s.pictures = [] ↔
    s.queueBufferPicture = [] ∧ s.picture.entries = [] ∧ s.smart.entries = [] := by
  simp only [State.pictures, List.append_eq_nil_iff]
  tauto

section Steps

variable (hs : SessionInv s₀ s)

include hs

/-! ### The preview -/

lemma SessionInv.previewDequeue (hstep : s.step .previewDequeue = some s') : SessionInv s₀ s' := by
  obtain ⟨e, q, hp, hq, rfl⟩ := State.of_previewDequeue hstep
  refine hs.moved ⟨Or.inl rfl, fun x hx => ?_, id, rfl, Or.inl rfl, Or.inl rfl⟩
    ⟨rfl, rfl, rfl, rfl, rfl, rfl⟩ fun i => ?_
  · rw [State.mem_entries] at hx ⊢
    simp only [hq, hp, PreviewPc.entries, List.mem_cons, List.not_mem_nil] at hx ⊢
    tauto
  · simp only [State.holders_eq, hq, hp, PreviewPc.entries, refs_cons, refs_nil]
    omega

lemma SessionInv.previewCheck (hstep : s.step .previewCheck = some s') : SessionInv s₀ s' := by
  obtain ⟨e, hp, -, rfl⟩ := State.of_previewCheck hstep
  have he : e ∈ s.entries := by
    rw [State.mem_entries, hp]
    simp [PreviewPc.entries]
  obtain ⟨i, -, -, -, hvalid⟩ := hs.counted he
  rw [if_neg hvalid]
  refine hs.moved ⟨Or.inl rfl, fun x hx => ?_, id, rfl, Or.inl rfl, Or.inl rfl⟩
    ⟨rfl, rfl, rfl, rfl, rfl, rfl⟩ fun i => ?_
  · rw [State.mem_entries] at hx ⊢
    simpa only [hp, PreviewPc.entries] using hx
  · simp only [State.holders_eq, hp, PreviewPc.entries]

lemma SessionInv.previewCallback {recorded : Bool}
    (hstep : s.step (.previewCallback recorded) = some s') : SessionInv s₀ s' := by
  obtain ⟨e, hp, ⟨-, rfl⟩ | ⟨-, i, hi, rfl⟩⟩ := State.of_previewCallback hstep
  · refine hs.moved ⟨Or.inl rfl, fun x hx => ?_, id, rfl, Or.inl rfl, Or.inl rfl⟩
      ⟨rfl, rfl, rfl, rfl, rfl, rfl⟩ fun i => ?_
    · rw [State.mem_entries] at hx ⊢
      simpa only [hp, PreviewPc.entries] using hx
    · simp only [State.holders_eq, hp, PreviewPc.entries]
  · have he : e ∈ s.entries := by
      rw [State.mem_entries, hp]
      simp [PreviewPc.entries]
    obtain ⟨j, hj, hindex, hpos, -⟩ := hs.counted he
    obtain rfl : i = j := Ptr.buf.inj (hi.symm.trans hj)
    rw [hi] at hindex
    simp only [State.deref] at hindex
    simp only [hindex]
    have hcopy : (⟨.buf i, e.kind, e.session, e.frame⟩ : Entry) = e := by rw [← hi]
    rw [hcopy]
    refine ⟨⟨hs.mode, fun x hx => hs.entries x ?_, hs.flag, hs.picture, hs.smart⟩, ?_⟩
    · rw [State.mem_entries] at hx ⊢
      simp only [hp, PreviewPc.entries, State.addRef, List.mem_cons, List.not_mem_nil] at hx ⊢
      tauto
    · refine hs.queued hpos ⟨rfl, rfl, rfl, rfl, rfl, rfl⟩ fun j => ?_
      simp only [State.holders_eq, hp, PreviewPc.entries, State.addRef, refs_cons, refs_nil, hi,
        Ptr.buf.injEq, eq_comm (a := i)]
      omega

lemma SessionInv.previewRelease (hstep : s.step (.previewRelease true) = some s') :
    SessionInv s₀ s' := by
  obtain ⟨e, hp, rfl⟩ := State.of_previewRelease hstep
  have he : e ∈ s.entries := by
    rw [State.mem_entries, hp]
    simp [PreviewPc.entries]
  obtain ⟨i, hi, hindex, -⟩ := hs.counted he
  rw [hindex]
  refine hs.released (fun t => { t with preview := .idle }) (fun _ _ _ _ => rfl)
    ⟨rfl, rfl, rfl, rfl, rfl, rfl⟩
    ⟨Or.inl rfl, fun x hx => ?_, id, rfl, Or.inl rfl, Or.inl rfl⟩ fun j => ?_
  · rw [State.mem_entries] at hx ⊢
    simp only [hp, PreviewPc.entries, List.not_mem_nil] at hx ⊢
    tauto
  · simp only [State.holders_eq, hp, PreviewPc.entries, refs_cons, refs_nil, hi, Ptr.buf.injEq,
      eq_comm (a := i)]
    omega

/-! ### Single pictures -/

lemma SessionInv.pictureDequeue (hstep : s.step .pictureDequeue = some s') : SessionInv s₀ s' := by
  obtain ⟨e, q, hp, hq, rfl⟩ := State.of_pictureDequeue hstep
  refine hs.moved ⟨Or.inl rfl, fun x hx => ?_, fun _ => ?_, rfl, Or.inr ?_, Or.inl rfl⟩
    ⟨rfl, rfl, rfl, rfl, rfl, rfl⟩ fun i => ?_
  · rw [State.mem_entries] at hx ⊢
    simp only [hq, hp, PicturePc.entries, List.mem_cons, List.not_mem_nil] at hx ⊢
    tauto
  · simp [State.pictures, hq]
  · simp
  · simp only [State.holders_eq, hq, hp, PicturePc.entries, refs_cons, refs_nil]
    omega

lemma SessionInv.pictureTake (hstep : s.step .pictureTake = some s') : SessionInv s₀ s' := by
  obtain ⟨e, hp, rfl⟩ := State.of_pictureTake hstep
  refine hs.moved ⟨Or.inl rfl, fun x hx => ?_, fun _ => ?_, rfl, Or.inr ?_, Or.inl rfl⟩
    ⟨rfl, rfl, rfl, rfl, rfl, rfl⟩ fun i => ?_
  · rw [State.mem_entries] at hx ⊢
    simpa only [hp, PicturePc.entries, State.take] using hx
  · simp [State.pictures, hp, PicturePc.entries]
  · simp
  · simp only [State.holders_eq, hp, PicturePc.entries, State.take]

lemma SessionInv.pictureCopyTest (hstep : s.step .pictureCopyTest = some s') :
    SessionInv s₀ s' := by
  obtain ⟨e, hp, rfl⟩ := State.of_pictureCopyTest hstep
  have he : e ∈ s.entries := by
    rw [State.mem_entries, hp]
    simp [PicturePc.entries]
  have hne : s.pictures ≠ [] := by simp [State.pictures, hp, PicturePc.entries]
  obtain ⟨i, hi, hindex, -⟩ := hs.counted he
  simp only [hs.flag hne, hindex, Bool.false_eq_true, if_false]
  refine ⟨⟨hs.mode, fun x hx => hs.entries x ?_, fun _ => rfl, ?_, hs.smart⟩, ?_⟩
  · rw [State.mem_entries] at hx ⊢
    simpa only [hp, PicturePc.entries] using hx
  · intro e' i' hrel
    obtain ⟨rfl, rfl⟩ := PicturePc.release.inj hrel
    exact hi
  · refine hs.balance.congr ⟨rfl, rfl, rfl, rfl, rfl, rfl⟩ fun j => ?_
    simp only [State.holders_eq, hp, PicturePc.entries]

lemma SessionInv.pictureRelease (hstep : s.step (.pictureRelease true) = some s') :
    SessionInv s₀ s' := by
  obtain ⟨e, i, hp, rfl⟩ := State.of_pictureRelease hstep
  have hi := hs.picture e i hp
  refine hs.released (fun t => { t with picture := .idle }) (fun _ _ _ _ => rfl)
    ⟨rfl, rfl, rfl, rfl, rfl, rfl⟩
    ⟨Or.inl rfl, fun x hx => ?_, fun _ => ?_, rfl, Or.inr (by simp), Or.inl rfl⟩ fun j => ?_
  · rw [State.mem_entries] at hx ⊢
    simp only [hp, PicturePc.entries, List.not_mem_nil] at hx ⊢
    tauto
  · simp [State.pictures, hp, PicturePc.entries]
  · simp only [State.holders_eq, hp, PicturePc.entries, refs_cons, refs_nil, hi, Ptr.buf.injEq,
      eq_comm (a := i)]
    omega

/-! ### Smart pictures -/

lemma SessionInv.smartDequeue (hstep : s.step .smartDequeue = some s') : SessionInv s₀ s' := by
  obtain ⟨e, q, hp, hq, rfl⟩ := State.of_smartDequeue hstep
  refine hs.moved ⟨Or.inl rfl, fun x hx => ?_, fun _ => ?_, rfl, Or.inl rfl, Or.inr ?_⟩
    ⟨rfl, rfl, rfl, rfl, rfl, rfl⟩ fun i => ?_
  · rw [State.mem_entries] at hx ⊢
    simp only [hq, hp, SmartPc.entries, List.mem_cons, List.not_mem_nil] at hx ⊢
    tauto
  · simp [State.pictures, hq]
  · simp
  · simp only [State.holders_eq, hq, hp, SmartPc.entries, refs_cons, refs_nil]
    omega

/-- The steps of the thread between the dequeue and the test of the flag. -/
lemma SessionInv.smartMoved {p : SmartPc} (hpc : s.smart.entries = p.entries)
    (hne : s.smart.entries ≠ []) (hno : ∀ e i, p ≠ .release e i)
    (hmode : s'.takePictureState = s.takePictureState ∨ s'.takePictureState = .null)
    (heq : s' = { s with
      takePictureState := s'.takePictureState, smartPictureDone := s'.smartPictureDone
      taken := s'.taken, smart := p }) : SessionInv s₀ s' := by
  have hpictures : s.pictures ≠ [] := fun hnil => hne (State.pictures_eq_nil.mp hnil).2.2
  rw [heq]
  refine hs.moved ⟨hmode, fun x hx => ?_, fun _ => hpictures, rfl, Or.inl rfl, Or.inr hno⟩
    ⟨rfl, rfl, rfl, rfl, rfl, rfl⟩ fun i => ?_
  · rw [State.mem_entries] at hx ⊢
    simpa only [hpc] using hx
  · simp only [State.holders_eq, hpc]

lemma SessionInv.smartDoneTest (hstep : s.step .smartDoneTest = some s') : SessionInv s₀ s' := by
  obtain ⟨e, hp, rfl | rfl⟩ := State.of_smartDoneTest hstep
  · exact hs.smartMoved (p := .taken e) (by simp [hp, SmartPc.entries])
      (by simp [hp, SmartPc.entries]) (by simp) (Or.inr rfl) rfl
  · exact hs.smartMoved (p := .blink e) (by simp [hp, SmartPc.entries])
      (by simp [hp, SmartPc.entries]) (by simp) (Or.inl rfl) rfl

lemma SessionInv.smartBlink {hit : Bool} (hstep : s.step (.smartBlink hit) = some s') :
    SessionInv s₀ s' := by
  obtain ⟨e, hp, rfl⟩ := State.of_smartBlink hstep
  refine hs.smartMoved (p := .smile e) (by simp [hp, SmartPc.entries])
    (by simp [hp, SmartPc.entries]) (by simp) ?_ ?_
  · cases hit with
    | false => exact Or.inl rfl
    | true => exact Or.inr rfl
  · cases hit with
    | false => rfl
    | true => rfl

lemma SessionInv.smartSmile {hit : Bool} (hstep : s.step (.smartSmile hit) = some s') :
    SessionInv s₀ s' := by
  obtain ⟨e, hp, rfl⟩ := State.of_smartSmile hstep
  refine hs.smartMoved (p := .taken e) (by simp [hp, SmartPc.entries])
    (by simp [hp, SmartPc.entries]) (by simp) ?_ ?_
  · cases hit with
    | false => exact Or.inl rfl
    | true => exact Or.inr rfl
  · cases hit with
    | false => rfl
    | true => rfl

lemma SessionInv.smartCopyTest (hstep : s.step .smartCopyTest = some s') : SessionInv s₀ s' := by
  obtain ⟨e, hp, rfl⟩ := State.of_smartCopyTest hstep
  have he : e ∈ s.entries := by
    rw [State.mem_entries, hp]
    simp [SmartPc.entries]
  have hne : s.pictures ≠ [] := by simp [State.pictures, hp, SmartPc.entries]
  obtain ⟨i, hi, hindex, -⟩ := hs.counted he
  simp only [hs.flag hne, hindex, Bool.false_eq_true, if_false]
  refine ⟨⟨hs.mode, fun x hx => hs.entries x ?_, fun _ => rfl, hs.picture, ?_⟩, ?_⟩
  · rw [State.mem_entries] at hx ⊢
    simpa only [hp, SmartPc.entries] using hx
  · intro e' i' hrel
    obtain ⟨rfl, rfl⟩ := SmartPc.release.inj hrel
    exact hi
  · refine hs.balance.congr ⟨rfl, rfl, rfl, rfl, rfl, rfl⟩ fun j => ?_
    simp only [State.holders_eq, hp, SmartPc.entries]

lemma SessionInv.smartRelease (hstep : s.step (.smartRelease true) = some s') :
    SessionInv s₀ s' := by
  obtain ⟨e, i, hp, rfl⟩ := State.of_smartRelease hstep
  have hi := hs.smart e i hp
  refine hs.released (fun t => { t with smart := .idle }) (fun _ _ _ _ => rfl)
    ⟨rfl, rfl, rfl, rfl, rfl, rfl⟩
    ⟨Or.inl rfl, fun x hx => ?_, fun _ => ?_, rfl, Or.inl rfl, Or.inr (by simp)⟩ fun j => ?_
  · rw [State.mem_entries] at hx ⊢
    simp only [hp, SmartPc.entries, List.not_mem_nil] at hx ⊢
    tauto
  · simp [State.pictures, hp, SmartPc.entries]
  · simp only [State.holders_eq, hp, SmartPc.entries, refs_cons, refs_nil, hi, Ptr.buf.injEq,
      eq_comm (a := i)]
    omega

/-! ### Bursts -/

lemma SessionInv.continuousDequeue (hstep : s.step .continuousDequeue = some s') :
    SessionInv s₀ s' := by
  obtain ⟨e, q, hp, hq, rfl⟩ := State.of_continuousDequeue hstep
  refine hs.moved ⟨Or.inl rfl, fun x hx => ?_, fun _ => ?_, rfl, Or.inl rfl, Or.inl rfl⟩
    ⟨rfl, rfl, rfl, rfl, rfl, rfl⟩ fun i => ?_
  · rw [State.mem_entries] at hx ⊢
    simp only [hq, hp, ContinuousPc.entries, List.mem_cons, List.not_mem_nil] at hx ⊢
    tauto
  · simp [State.pictures, hq]
  · simp only [State.holders_eq, hq, hp, ContinuousPc.entries, refs_cons, refs_nil]
    omega

lemma SessionInv.continuousCheck (hstep : s.step .continuousCheck = some s') :
    SessionInv s₀ s' := by
  obtain ⟨e, hp, -, rfl⟩ := State.of_continuousCheck hstep
  have he : e ∈ s.entries := by
    rw [State.mem_entries, hp]
    simp [ContinuousPc.entries]
  obtain ⟨i, -, -, -, hvalid⟩ := hs.counted he
  rw [if_neg hvalid]
  refine hs.moved ⟨Or.inl rfl, fun x hx => ?_, id, rfl, Or.inl rfl, Or.inl rfl⟩
    ⟨rfl, rfl, rfl, rfl, rfl, rfl⟩ fun i => ?_
  · rw [State.mem_entries] at hx ⊢
    simpa only [hp, ContinuousPc.entries] using hx
  · simp only [State.holders_eq, hp, ContinuousPc.entries]

lemma SessionInv.continuousTake {ret : Bool} (hstep : s.step (.continuousTake ret) = some s') :
    SessionInv s₀ s' := by
  obtain ⟨e, hp, rfl⟩ := State.of_continuousTake hstep
  have hgo : ∀ m b c l, (m = s.takePictureState ∨ m = .null) → SessionInv s₀ { s with
      takePictureState := m, continuousPictureStarted := b, continuousPictureCnt := c, taken := l
      continuous := .done e } := by
    intro m b c l hm
    refine hs.moved ⟨hm, fun x hx => ?_, id, rfl, Or.inl rfl, Or.inl rfl⟩
      ⟨rfl, rfl, rfl, rfl, rfl, rfl⟩ fun i => ?_
    · rw [State.mem_entries] at hx ⊢
      simpa only [hp, ContinuousPc.entries] using hx
    · simp only [State.holders_eq, hp, ContinuousPc.entries]
  unfold State.takeContinuous
  split_ifs
  · exact hgo _ _ _ _ (Or.inr rfl)
  · exact hgo _ _ _ _ (Or.inr rfl)
  · exact hgo _ _ _ _ (Or.inl rfl)
  · exact hgo _ _ _ _ (Or.inl rfl)

lemma SessionInv.continuousRelease (hstep : s.step (.continuousRelease true) = some s') :
    SessionInv s₀ s' := by
  obtain ⟨e, hp, rfl⟩ := State.of_continuousRelease hstep
  have he : e ∈ s.entries := by
    rw [State.mem_entries, hp]
    simp [ContinuousPc.entries]
  obtain ⟨i, hi, hindex, -⟩ := hs.counted he
  rw [hindex]
  refine hs.released (fun t => { t with continuous := .idle }) (fun _ _ _ _ => rfl)
    ⟨rfl, rfl, rfl, rfl, rfl, rfl⟩
    ⟨Or.inl rfl, fun x hx => ?_, id, rfl, Or.inl rfl, Or.inl rfl⟩ fun j => ?_
  · rw [State.mem_entries] at hx ⊢
    simp only [hp, ContinuousPc.entries, List.not_mem_nil] at hx ⊢
    tauto
  · simp only [State.holders_eq, hp, ContinuousPc.entries, refs_cons, refs_nil, hi,
      Ptr.buf.injEq, eq_comm (a := i)]
    omega

/-! ### The capture thread and the encoder -/

lemma SessionInv.captureRelease (hstep : s.step (.captureRelease true) = some s') :
    SessionInv s₀ s' := by
  obtain ⟨i, hp, rfl⟩ := State.of_captureRelease hstep
  refine hs.released (fun t => { t with capture := .idle }) (fun _ _ _ _ => rfl)
    ⟨rfl, rfl, rfl, rfl, rfl, rfl⟩
    ⟨Or.inl rfl, fun x hx => hx, id, rfl, Or.inl rfl, Or.inl rfl⟩ fun j => ?_
  simp only [State.holders_eq, hp, CapturePc.refs, eq_comm (a := i)]
  omega

lemma SessionInv.encoderRelease (hstep : s.step (.encoderRelease e true) = some s') :
    SessionInv s₀ s' := by
  obtain ⟨i, hi, he, rfl⟩ := State.of_encoderRelease hstep
  refine hs.released (fun t => { t with encoder := s.encoder.erase e }) (fun _ _ _ _ => rfl)
    ⟨rfl, rfl, rfl, rfl, rfl, rfl⟩
    ⟨Or.inl rfl, fun x hx => ?_, id, rfl, Or.inl rfl, Or.inl rfl⟩ fun j => ?_
  · rw [State.mem_entries] at hx ⊢
    have hsub : x ∈ s.encoder.erase e → x ∈ s.encoder := fun hx => List.mem_of_mem_erase hx
    tauto
  · simp only [State.holders_eq, refs_erase he j, hi, Ptr.buf.injEq, eq_comm (a := i)]
    omega

/-- The step lemma of a session. -/
lemma SessionInv.step {a : Act} (hok : SessionOk a s) (hstep : s.step a = some s') :
    SessionInv s₀ s' := by
  cases a with
  | setTakePictureState t =>
    obtain rfl := Option.some.inj hstep
    refine ⟨⟨hok, hs.entries, hs.flag, hs.picture, hs.smart⟩, ?_⟩
    exact hs.balance.congr ⟨rfl, rfl, rfl, rfl, rfl, rfl⟩ fun _ => rfl
  | startDevice bufferCnt => exact hok.elim
  | stopDevice => exact hok.elim
  | startDeliveringFrames | stopDeliveringFrames | startSmartPicture | stopSmartPicture
  | startContinuousPicture | stopContinuousPicture | setContinuousPictureCnt cnt =>
    obtain rfl := Option.some.inj hstep
    exact hs.moved ⟨Or.inl rfl, fun _ he => he, id, rfl, Or.inl rfl, Or.inl rfl⟩
      ⟨rfl, rfl, rfl, rfl, rfl, rfl⟩ fun _ => rfl
  | captureFrame i f =>
    simp only [State.step] at hstep
    split_ifs at hstep with hguard
    obtain rfl := Option.some.inj hstep
    exact hs.captureFrame hguard.1 hguard.2.2 f hok
  | captureRelease ok =>
    obtain rfl : ok = true := hok
    exact hs.captureRelease hstep
  | previewDequeue => exact hs.previewDequeue hstep
  | previewCheck => exact hs.previewCheck hstep
  | previewCallback recorded => exact hs.previewCallback hstep
  | previewRelease ok =>
    obtain rfl : ok = true := hok
    exact hs.previewRelease hstep
  | pictureDequeue => exact hs.pictureDequeue hstep
  | pictureTake => exact hs.pictureTake hstep
  | pictureCopyTest => exact hs.pictureCopyTest hstep
  | pictureRelease ok =>
    obtain rfl : ok = true := hok
    exact hs.pictureRelease hstep
  | smartDequeue => exact hs.smartDequeue hstep
  | smartDoneTest => exact hs.smartDoneTest hstep
  | smartBlink hit => exact hs.smartBlink hstep
  | smartSmile hit => exact hs.smartSmile hstep
  | smartCopyTest => exact hs.smartCopyTest hstep
  | smartRelease ok =>
    obtain rfl : ok = true := hok
    exact hs.smartRelease hstep
  | continuousDequeue => exact hs.continuousDequeue hstep
  | continuousCheck => exact hs.continuousCheck hstep
  | continuousTake ret => exact hs.continuousTake hstep
  | continuousRelease ok =>
    obtain rfl : ok = true := hok
    exact hs.continuousRelease hstep
  | encoderRelease e ok =>
    obtain rfl : ok = true := hok
    exact hs.encoderRelease hstep

end Steps

/-- The run lemma of a session. -/
lemma SessionInv.run (hs : SessionInv s₀ s) (hrun : Run SessionOk s s') : SessionInv s₀ s' :=
  Framework.Runs.invariant (fun hs hok hstep => hs.step hok hstep) hs hrun

/-! ## Sessions -/

/-- A session that starts without references. -/
lemma sessionInv_startDevice {n : ℕ} (hn : n ≤ nbBuffer) (hempty : s.entries = [])
    (hcap : ∀ i, s.capture ≠ .release i) (hmode : s.takePictureState ≠ .normal) :
    SessionInv (s.startDevice n) (s.startDevice n) := by
  have hempty' : (s.startDevice n).entries = [] := hempty
  have hzero : ∀ i, (s.startDevice n).holders i = 0 := by
    intro i
    have hrefs : (s.startDevice n).capture.refs i = 0 := by
      cases hc : s.capture with
      | release j => exact absurd hc (hcap j)
      | idle => simp [State.startDevice, hc, CapturePc.refs]
      | exited => simp [State.startDevice, hc, CapturePc.refs]
    rw [State.holders, hempty', hrefs]
    rfl
  have hno : ∀ e, e ∉ (s.startDevice n).entries := by
    intro e
    rw [hempty']
    exact List.not_mem_nil
  refine ⟨⟨hmode, fun e he => absurd he (hno e), fun hne => ?_, fun e i hp => ?_, fun e i hp => ?_⟩,
    ?_, ?_, fun i => Or.inl ⟨rfl, rfl, hzero i, rfl⟩⟩
  · simp only [State.entries, List.append_eq_nil_iff] at hempty'
    exact absurd hempty'.1.1.2 hne
  · refine absurd (State.mem_entries.mpr ?_) (hno e)
    simp [hp, PicturePc.entries]
  · refine absurd (State.mem_entries.mpr ?_) (hno e)
    simp [hp, SmartPc.entries]
  · have hcard : ∀ n : Fin (nbBuffer + 1),
        (Finset.univ.filter fun i : Fin nbBuffer => i.val < n.val).card = n.val := by decide
    simp only [State.startDevice, hcard ⟨n, Nat.lt_succ_of_le hn⟩]
  · intro i hi
    simpa [State.startDevice] using hi

/-- **Reference counting inside a session.**  From a start with empty queues and idle threads on,
whatever the interleaving: the count of every buffer that the session has taken from the driver
is its number of holders (for the others too, if `stopDevice` has cleared them); a buffer has
been queued back once for every time it was taken, up to the one time it is out, and it is out
exactly while it has a holder; and the number of available buffers is that of the driver. -/
theorem refCnt_eq_holders (s t : State) (n : ℕ) (hn : n ≤ nbBuffer) (hempty : s.entries = [])
    (hcap : ∀ i, s.capture ≠ .release i) (hmode : s.takePictureState ≠ .normal)
    (hrun : Run SessionOk (s.startDevice n) t) :
    (∀ i, 0 < t.dqbufs i ∨ (s.v4l2buf i).refCnt = 0 → (t.v4l2buf i).refCnt = t.holders i) ∧
    (∀ i, t.dqbufs i = t.qbufs i + if 0 < t.holders i then 1 else 0) ∧
    (∀ i, i ∈ t.driver → t.holders i = 0) ∧
    (∀ i, 0 < t.dqbufs i → t.holders i = 0 → i ∈ t.driver) ∧
    t.curAvailBufferCnt = t.driver.card := by
  have ht := (sessionInv_startDevice hn hempty hcap hmode).run hrun
  refine ⟨fun i hi => ?_, fun i => ?_, fun i hi => ht.balance.holders_eq_zero hi, fun i hdq hh => ?_,
    ht.balance.avail⟩
  · rcases ht.balance.buffers i with hun | hc
    · have hdq := hun.dqbufs
      rcases hi with hi | hi
      · omega
      · rw [hun.refCnt, hun.holders]
        exact hi
    · exact hc.refCnt
  · rcases ht.balance.buffers i with hun | hc
    · rw [hun.dqbufs, hun.qbufs, hun.holders]
      rfl
    · exact hc.qbufs
  · rcases ht.balance.buffers i with hun | hc
    · have hzero := hun.dqbufs
      omega
    · exact hc.driver.mpr hh

/-- One captured frame: the capture thread and the preview queue hold it. -/
theorem refCnt_eq_holders_one :
    ∃ t, Run SessionOk ((constructed 1 fun _ => .cleared).startDevice nbBuffer) t ∧
      (t.v4l2buf ⟨0, by decide⟩).refCnt = 2 ∧ t.holders ⟨0, by decide⟩ = 2 := by
  let s := { constructed 1 fun _ => .cleared with paused := false }
  have hrun : Run SessionOk ((constructed 1 fun _ => .cleared).startDevice nbBuffer)
      (((s.startDevice nbBuffer).captureFrame ⟨0, by decide⟩ ⟨1, false, false, false⟩)) := by
    refine (Relation.ReflTransGen.single ⟨.startDeliveringFrames, trivial, rfl⟩).tail
      ⟨.captureFrame ⟨0, by decide⟩ ⟨1, false, false, false⟩, Nat.one_ne_zero, ?_⟩
    rfl
  have hcount : (((s.startDevice nbBuffer).captureFrame ⟨0, by decide⟩
      ⟨1, false, false, false⟩).v4l2buf ⟨0, by decide⟩).refCnt = 2 := rfl
  refine ⟨_, hrun, hcount, ?_⟩
  rw [← (refCnt_eq_holders _ _ nbBuffer le_rfl rfl (by simp [constructed]) (by decide) hrun).1
    ⟨0, by decide⟩ (Or.inr rfl)]
  exact hcount

end Softwinner.Camera

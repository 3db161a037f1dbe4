import Softwinner.Framework.Ring
import Softwinner.Framework.Runs
import Softwinner.Sensors.Poll

/-!
# The reader of input events

`InputEventCircularReader` of `InputEventReader.cpp`: a ring of events in a buffer of twice its
size.  `fill` lets the kernel write from `mHead` on, over the end of the ring if there is room, and
copies what is behind the end to the start.  `mHead` may rest on the end, where `mCurr` starts
again.

`InputReader.Holds` relates the ring to the events that are still unread, `Framework/Ring.lean` has
its arithmetic.  An access outside the buffer has no result.
-/

namespace Softwinner.Sensors

open Framework

variable {α : Type}

/-- What `read` does on an input device. -/
inductive ReadResult (α : Type)
  | events (xs : List α)
  | error (errno : ℕ)
  /-- The number of bytes is not a multiple of the size of an event; `xs` is what is in the buffer
  then, with the last event torn. -/
  | torn (xs : List α)

def ReadResult.written : ReadResult α → List α
  | .events xs | .torn xs => xs
  | .error _ => []

/-- The pointers are indices into `mBuffer`. -/
structure InputReader (α : Type) where
  mBuffer : ℤ → α
  mBufferEnd : ℤ
  mHead : ℤ
  mCurr : ℤ
  mFreeSpace : ℤ

namespace InputReader

/-- The constructor; `m` is what is in the new buffer. -/
def create (numEvents : ℕ) (m : ℤ → α) : InputReader α := ⟨m, numEvents, 0, 0, numEvents⟩

variable (q : InputReader α)

/-- `len` events from `off` on are in the buffer, which has twice the size of the ring. -/
def Inside (off len : ℤ) : Prop := 0 ≤ off ∧ off + len ≤ q.mBufferEnd * 2

instance (off len : ℤ) : Decidable (q.Inside off len) := inferInstanceAs (Decidable (_ ∧ _))

/-- What is behind the end of the ring goes to its start. -/
def wrap : Option (InputReader α) :=
  if q.mBufferEnd < q.mHead then
    let s := q.mHead - q.mBufferEnd
    if q.Inside q.mBufferEnd s ∧ q.Inside 0 s then
      some { q with
        mBuffer := Ring.store q.mBuffer 0 (Ring.load q.mBuffer q.mBufferEnd s), mHead := s }
    else none
  else some q

def fill (r : ReadResult α) : Option (ℤ × InputReader α) :=
  if q.mFreeSpace = 0 then some (0, q)
  else if ¬ q.Inside q.mHead r.written.length then none
  else
    let m := Ring.store q.mBuffer q.mHead r.written
    match r with
    | .error errno => some (-errno, q)
    | .torn _ => some (-EINVAL, { q with mBuffer := m })
    | .events xs =>
      if xs.length = 0 then some (0, q)
      else
        ({ q with
          mBuffer := m, mHead := q.mHead + xs.length,
          mFreeSpace := q.mFreeSpace - xs.length } : InputReader α).wrap.map fun q => (xs.length, q)

/-- `readEvent`, with the position of the event. -/
def readEvent : ℤ × ℤ :=
  let available := q.mBufferEnd - q.mFreeSpace
  (if available ≠ 0 then 1 else 0, q.mCurr)

def next : InputReader α :=
  let q := { q with mCurr := q.mCurr + 1, mFreeSpace := q.mFreeSpace + 1 }
  if q.mBufferEnd ≤ q.mCurr then { q with mCurr := 0 } else q

/-- The events that `fill` takes over. -/
def accepted (r : ReadResult α) : List α :=
  if q.mFreeSpace = 0 then []
  else match r with
    | .events xs => xs
    | _ => []

/-- The kernel writes no more than it has been asked for. -/
def Permits (r : ReadResult α) : Prop := q.mFreeSpace ≠ 0 → (r.written.length : ℤ) ≤ q.mFreeSpace

instance (r : ReadResult α) : Decidable (q.Permits r) := inferInstanceAs (Decidable (_ → _))

/-- The events between `mCurr` and `mHead`. -/
def unread : List α :=
  Ring.copyOut q.mBuffer q.mBufferEnd q.mCurr (q.mBufferEnd - q.mFreeSpace)

/-! ## The ring -/

/-- The ring holds `xs`, the event to be read next in front. -/
structure Holds (q : InputReader α) (xs : List α) : Prop where
  head : 0 ≤ q.mHead ∧ q.mHead ≤ q.mBufferEnd
  curr : 0 ≤ q.mCurr ∧ q.mCurr < q.mBufferEnd
  length : (xs.length : ℤ) = q.mBufferEnd - q.mFreeSpace
  free : 0 ≤ q.mFreeSpace
  behind : Ring.Behind q.mBufferEnd q.mCurr xs q.mHead
  cells : Ring.Holds q.mBuffer q.mBufferEnd q.mCurr xs

variable {q} {xs ys : List α} {r : ReadResult α} {m : ℤ → α}

lemma holds_create {numEvents : ℕ} (hn : 1 ≤ numEvents) (m : ℤ → α) :
    (create numEvents m).Holds [] where
  head := ⟨Int.le_refl 0, by simp [create]⟩
  curr := ⟨Int.le_refl 0, by simp [create]; omega⟩
  length := by simp [create]
  free := by simp [create]
  behind := Or.inl rfl
  cells := fun k hk => absurd hk (Nat.not_lt_zero k)

lemma Holds.unread_eq (hq : q.Holds xs) : q.unread = xs := by
  rw [unread, ← hq.length, hq.cells.copyOut hq.curr ⟨Int.natCast_nonneg _, Int.le_refl _⟩,
    Int.toNat_natCast, List.take_length]

/-- A position of the ring is a position of the first half of the buffer. -/
lemma circ_mem {n c : ℤ} (hc : 0 ≤ c ∧ c < n) {k : ℕ} (hk : (k : ℤ) < n) :
    0 ≤ Ring.circ n c k ∧ Ring.circ n c k < n := by
  unfold Ring.circ
  split_ifs <;> omega

/-- What the kernel writes does not touch the unread events. -/
lemma Holds.store (hq : q.Holds xs) (hys : (ys.length : ℤ) ≤ q.mFreeSpace) :
    Ring.Holds (Ring.store q.mBuffer q.mHead ys) q.mBufferEnd q.mCurr xs := by
  intro k hk
  have hlen := hq.length
  have hcurr := hq.curr
  have hfree := hq.free
  have hcirc := circ_mem hcurr (k := k) (n := q.mBufferEnd) (by omega)
  rw [Ring.store_off]
  · exact hq.cells k hk
  · unfold Ring.circ at hcirc ⊢
    rcases hq.behind with h | h | h
    · split_ifs at hcirc ⊢ <;> omega
    · split_ifs at hcirc ⊢ <;> omega
    · split_ifs at hcirc ⊢ <;> omega

/-- The places of the ring do not tell a spill that is copied back from a copy in two parts. -/
lemma store_load_eq {n w : ℤ} (hw : 0 ≤ w ∧ w ≤ n) (hover : n < w + ys.length) {i : ℤ}
    (hi : 0 ≤ i ∧ i < n) :
    Ring.store (Ring.store m w ys) 0 (Ring.load (Ring.store m w ys) n (w + ys.length - n)) i =
      Ring.copyIn m n w ys i := by
  unfold Ring.copyIn
  rw [if_pos hover]
  have hload : Ring.load (Ring.store m w ys) n (w + ys.length - n) = ys.drop (n - w).toNat := by
    refine List.ext_getElem (by simp; omega) fun k hk hk' => ?_
    simp only [List.length_drop] at hk'
    have hidx : n + (k : ℤ) = w + (((n - w).toNat + k : ℕ) : ℤ) := by omega
    rw [Ring.getElem_load, hidx, Ring.store_at m w (by omega), List.getElem_drop]
  rw [hload]
  by_cases hspill : i < (ys.drop (n - w).toNat).length
  · obtain ⟨k, rfl⟩ : ∃ k : ℕ, i = 0 + k := ⟨i.toNat, by omega⟩
    have hk : k < (ys.drop (n - w).toNat).length := by omega
    rw [Ring.store_at _ 0 hk, Ring.store_at _ 0 hk]
  · have hoff : ∀ m' : ℤ → α, Ring.store m' 0 (ys.drop (n - w).toNat) i = m' i :=
      fun m' => Ring.store_off _ _ (Or.inr (by omega))
    rw [hoff, hoff]
    by_cases hlow : i < w
    · rw [Ring.store_off _ _ (Or.inl hlow), Ring.store_off _ _ (Or.inl hlow)]
    · obtain ⟨k, rfl⟩ : ∃ k : ℕ, i = w + k := ⟨(i - w).toNat, by omega⟩
      have hk : k < (ys.take (n - w).toNat).length := by
        simp only [List.length_drop] at hspill
        simp only [List.length_take]
        omega
      have hk' : k < ys.length := by
        simp only [List.length_take] at hk
        omega
      rw [Ring.store_at _ w hk', Ring.store_at _ w hk, List.getElem_take]

/-- The kernel has written `ys`, and the ring is as behind a copy of `ys`. -/
lemma Holds.filled (hq : q.Holds xs) (hys : (ys.length : ℤ) ≤ q.mFreeSpace) {m : ℤ → α} {h : ℤ}
    (hm : ∀ i, 0 ≤ i ∧ i < q.mBufferEnd → m i = Ring.copyIn q.mBuffer q.mBufferEnd q.mHead ys i)
    (hh : 0 ≤ h ∧ h ≤ q.mBufferEnd)
    (hmove : h = q.mHead + ys.length ∨ h = q.mHead + ys.length - q.mBufferEnd) :
    Holds { q with mBuffer := m, mHead := h, mFreeSpace := q.mFreeSpace - ys.length }
      (xs ++ ys) := by
  have hlen := hq.length
  have hfree := hq.free
  have hcurr := hq.curr
  have hfit : (xs.length : ℤ) + ys.length ≤ q.mBufferEnd := by omega
  refine ⟨hh, hcurr, ?_, ?_, ?_, ?_⟩
  · simp only [List.length_append]
    omega
  · simp only
    omega
  · simp only [Ring.Behind, List.length_append]
    have hbehind := hq.behind
    simp only [Ring.Behind] at hbehind
    omega
  · have hcopy : Ring.Holds (Ring.copyIn q.mBuffer q.mBufferEnd q.mHead ys) q.mBufferEnd q.mCurr
        (xs ++ ys) :=
      (hq.cells.copyIn hcurr hq.head hq.behind hfit).append
        (Ring.holds_copyIn hq.head (by omega)) hcurr hq.head hq.behind hfit
    intro k hk
    have hk' : (k : ℤ) < q.mBufferEnd := by
      simp only [List.length_append] at hk
      omega
    exact (hm _ (circ_mem hcurr hk')).trans (hcopy k hk)

/-- The ring takes up what is behind its end. -/
lemma wrap_eq (hhead : q.mHead ≤ q.mBufferEnd * 2) (hend : 0 ≤ q.mBufferEnd) :
    q.wrap = some (if q.mBufferEnd < q.mHead then { q with
      mBuffer := Ring.store q.mBuffer 0 (Ring.load q.mBuffer q.mBufferEnd (q.mHead - q.mBufferEnd))
      mHead := q.mHead - q.mBufferEnd } else q) := by
  unfold wrap
  by_cases hover : q.mBufferEnd < q.mHead
  · have hinside : q.Inside q.mBufferEnd (q.mHead - q.mBufferEnd) ∧
        q.Inside 0 (q.mHead - q.mBufferEnd) := ⟨⟨hend, by omega⟩, ⟨Int.le_refl 0, by omega⟩⟩
    rw [if_pos hover, if_pos hover]
    exact if_pos hinside
  · rw [if_neg hover, if_neg hover]

/-- `fill` stays in the buffer, and puts the events of a successful read behind the unread ones. -/
lemma Holds.fill (hq : q.Holds xs) (hr : q.Permits r) :
    ∃ ret q', q.fill r = some (ret, q') ∧ q'.mBufferEnd = q.mBufferEnd ∧ q'.mCurr = q.mCurr ∧
      q'.Holds (xs ++ q.accepted r) ∧ (ret < 0 → q.accepted r = []) := by
  unfold InputReader.fill accepted
  by_cases hfull : q.mFreeSpace = 0
  · rw [if_pos hfull, if_pos hfull, List.append_nil]
    exact ⟨0, q, rfl, rfl, rfl, hq, fun _ => rfl⟩
  have hlen := hq.length
  have hfree := hq.free
  have hhead := hq.head
  have hwritten := hr hfull
  have hinside : q.Inside q.mHead r.written.length := ⟨hhead.1, by omega⟩
  rw [if_neg hfull, if_neg (not_not.mpr hinside), if_neg hfull]
  cases r with
  | error errno =>
    rw [List.append_nil]
    exact ⟨_, q, rfl, rfl, rfl, hq, fun _ => rfl⟩
  | torn ys =>
    rw [List.append_nil]
    exact ⟨_, _, rfl, rfl, rfl, ⟨hhead, hq.curr, hlen, hfree, hq.behind, hq.store hwritten⟩,
      fun _ => rfl⟩
  | events ys =>
    simp only [ReadResult.written] at hwritten
    by_cases hnone : ys.length = 0
    · obtain rfl := List.length_eq_zero_iff.mp hnone
      rw [List.append_nil]
      exact ⟨_, q, rfl, rfl, rfl, hq, fun _ => rfl⟩
    simp only [if_neg hnone, ReadResult.written]
    rw [wrap_eq (by simp only; omega) (by simp only; omega), Option.map_some]
    refine ⟨_, _, rfl, ?_⟩
    by_cases hover : q.mBufferEnd < q.mHead + ys.length
    · rw [if_pos hover]
      refine ⟨rfl, rfl, ?_, fun h => absurd h (by omega)⟩
      exact hq.filled hwritten (fun i hi => store_load_eq hhead hover hi)
        (by simp only; omega) (Or.inr rfl)
    · rw [if_neg hover]
      refine ⟨rfl, rfl, ?_, fun h => absurd h (by omega)⟩
      refine hq.filled hwritten (fun i _ => ?_) (by omega) (Or.inl rfl)
      rw [Ring.copyIn, if_neg hover]

/-- `readEvent` finds the next event if there is one. -/
lemma Holds.readEvent (hq : q.Holds xs) :
    q.readEvent = (if xs = [] then 0 else 1, q.mCurr) ∧ ∀ x ∈ xs.head?, q.mBuffer q.mCurr = x := by
  have hlen := hq.length
  constructor
  · unfold InputReader.readEvent
    simp only
    cases xs with
    | nil =>
      simp only [List.length_nil] at hlen
      rw [if_pos rfl, if_neg (by omega)]
    | cons x xs =>
      simp only [List.length_cons] at hlen
      rw [if_neg (List.cons_ne_nil x xs), if_pos (by omega)]
  · intro x hx
    cases xs with
    | nil => cases hx
    | cons y ys =>
      obtain rfl := Option.some.inj hx
      have hcell := hq.cells 0 (Nat.zero_lt_succ _)
      rw [Ring.circ, if_pos (by have := hq.curr; omega)] at hcell
      simpa using hcell

lemma next_mBufferEnd (q : InputReader α) : q.next.mBufferEnd = q.mBufferEnd := by
  simp only [next]
  split_ifs <;> rfl

lemma Holds.next {x : α} (hq : q.Holds (x :: xs)) : q.next.Holds xs := by
  have hlen := hq.length
  have hcurr := hq.curr
  have hfree := hq.free
  have hbehind := hq.behind
  simp only [List.length_cons, Ring.Behind] at hlen hbehind
  have hdrop : ∀ c : ℤ, 0 ≤ c ∧ c < q.mBufferEnd →
      (c = q.mCurr + 1 ∨ c = q.mCurr + 1 - q.mBufferEnd) →
      Ring.Holds q.mBuffer q.mBufferEnd c xs := fun c hc hmove =>
    hq.cells.drop (d := 1) (by simp) hcurr hc (by simp only [List.length_cons]; omega) hmove
  have hhead := hq.head
  unfold InputReader.next
  by_cases hend : q.mBufferEnd ≤ q.mCurr + 1
  · simp only [if_pos hend]
    refine ⟨hq.head, by simp only; omega, by simp only; omega, by simp only; omega, ?_, ?_⟩
    · simp only [Ring.Behind]
      omega
    · exact hdrop 0 (by omega) (Or.inr (by omega))
  · simp only [if_neg hend]
    refine ⟨hq.head, by simp only; omega, by simp only; omega, by simp only; omega, ?_, ?_⟩
    · simp only [Ring.Behind]
      omega
    · exact hdrop (q.mCurr + 1) (by omega) (Or.inl rfl)

end InputReader

/-! ## Its use -/

/-- A reader and its caller.  `shown` is the position that `readEvent` has given, until `next`; the
caller reads the event there.  `filled` are the events of the successful reads, `seen` those that
the caller has done with. -/
structure Reading (α : Type) where
  reader : InputReader α
  shown : Option ℤ
  filled : List α
  seen : List α

inductive ReaderCall (α : Type)
  | fill (r : ReadResult α)
  | readEvent
  | next

namespace Reading

/-- The kernel writes what it may, and `next` comes behind a `readEvent` with the result 1. -/
def Allowed (a : ReaderCall α) (s : Reading α) : Prop :=
  match a with
  | .fill r => s.reader.Permits r
  | .readEvent => True
  | .next => s.shown.isSome = true

instance (a : ReaderCall α) (s : Reading α) : Decidable (Allowed a s) :=
  match a with
  | .fill r => inferInstanceAs (Decidable (s.reader.Permits r))
  | .readEvent => inferInstanceAs (Decidable True)
  | .next => inferInstanceAs (Decidable (_ = _))

def initial (numEvents : ℕ) (m : ℤ → α) : Reading α := ⟨.create numEvents m, none, [], []⟩

/-- A call; there is no result if it makes an access outside the buffer. -/
def step (s : Reading α) : ReaderCall α → Option (Reading α)
  | .fill r =>
    (s.reader.fill r).map fun (x : ℤ × InputReader α) =>
      { s with
        reader := x.2
        filled := if x.1 < 0 then s.filled else s.filled ++ s.reader.accepted r }
  | .readEvent =>
    let x := s.reader.readEvent
    some { s with shown := if x.1 = 1 then some x.2 else none }
  | .next =>
    s.shown.bind fun p =>
      if s.reader.Inside p 1 then
        some { s with
          reader := s.reader.next, shown := none, seen := s.seen ++ [s.reader.mBuffer p] }
      else none

/-- What the calls keep. -/
structure Inv (numEvents : ℕ) (s : Reading α) (xs : List α) : Prop where
  size : s.reader.mBufferEnd = numEvents
  holds : s.reader.Holds xs
  filled : s.filled = s.seen ++ xs
  shown : ∀ p ∈ s.shown, p = s.reader.mCurr ∧ xs ≠ []

variable {numEvents : ℕ} {s s' : Reading α} {a : ReaderCall α} {xs : List α}

lemma inv_initial (hn : 1 ≤ numEvents) (m : ℤ → α) : Inv numEvents (initial numEvents m) [] :=
  ⟨rfl, InputReader.holds_create hn m, rfl, nofun⟩

/-- One call is inside the buffer and keeps the invariant. -/
lemma Inv.step (hs : Inv numEvents s xs) (hok : Allowed a s) :
    ∃ s' ys, s.step a = some s' ∧ Inv numEvents s' ys := by
  cases a with
  | fill r =>
    obtain ⟨ret, q', heq, hend, hcurr, hq', hneg⟩ := hs.holds.fill hok
    refine ⟨_, _, by simp only [Reading.step, heq]; rfl, hend.trans hs.size, hq', ?_,
      fun p hp => ?_⟩
    · simp only [hs.filled]
      split_ifs with hret
      · rw [hneg hret, List.append_nil]
      · exact List.append_assoc ..
    · obtain ⟨hpos, hne⟩ := hs.shown p hp
      exact ⟨hpos.trans hcurr.symm, List.append_ne_nil_of_left_ne_nil hne _⟩
  | readEvent =>
    refine ⟨_, xs, rfl, hs.size, hs.holds, hs.filled, fun p hp => ?_⟩
    simp only [hs.holds.readEvent.1] at hp
    by_cases hnil : xs = []
    · rw [if_pos hnil] at hp
      cases hp
    · rw [if_neg hnil, if_pos rfl] at hp
      exact ⟨(Option.some.inj hp).symm, hnil⟩
  | next =>
    obtain ⟨p, hp⟩ := Option.isSome_iff_exists.mp hok
    obtain ⟨rfl, hne⟩ := hs.shown p hp
    obtain ⟨x, ys, rfl⟩ := List.exists_cons_of_ne_nil hne
    have hcurr := hs.holds.curr
    have hinside : s.reader.Inside s.reader.mCurr 1 := ⟨hcurr.1, by omega⟩
    have hread := hs.holds.readEvent.2 x rfl
    refine ⟨_, ys, by simp only [Reading.step, hp, Option.bind_some, if_pos hinside]; rfl, ?_⟩
    refine ⟨?_, hs.holds.next, ?_, fun p hp => by cases hp⟩
    · exact (InputReader.next_mBufferEnd s.reader).trans hs.size
    · simp only [hread, hs.filled, List.append_assoc, List.singleton_append]

end Reading

/-- **The reader is a queue.**  In every state that allowed calls reach, the events that the caller
has seen and those between `mCurr` and `mHead` are the events of the successful reads, in their
order; `mFreeSpace` is what the unread events leave free; `readEvent` shows the first unread event,
or that there is none; every further allowed call stays inside the buffer; and a `fill` that returns
an error changes neither the events nor the space. -/
theorem reader_fifo (numEvents : ℕ) (hn : 1 ≤ numEvents) (m : ℤ → α) (s : Reading α)
    (hrun : Runs Reading.step Reading.Allowed (.initial numEvents m) s) :
    s.filled = s.seen ++ s.reader.unread ∧
    s.reader.mFreeSpace = numEvents - (s.filled.length - s.seen.length : ℤ) ∧
    (s.reader.readEvent = (if s.reader.unread = [] then 0 else 1, s.reader.mCurr) ∧
      ∀ x ∈ s.reader.unread.head?, s.reader.mBuffer s.reader.mCurr = x) ∧
    (∀ a, Reading.Allowed a s → (s.step a).isSome = true) ∧
    ∀ r ret q, Reading.Allowed (.fill r) s → s.reader.fill r = some (ret, q) → ret < 0 →
      q.unread = s.reader.unread ∧ q.mFreeSpace = s.reader.mFreeSpace := by
  have hinv : ∃ xs, Reading.Inv numEvents s xs := by
    refine Runs.invariant (P := fun s => ∃ xs, Reading.Inv numEvents s xs) ?_
      ⟨[], Reading.inv_initial hn m⟩ hrun
    intro s s' a hs hok hstep
    obtain ⟨xs, hs⟩ := hs
    obtain ⟨t, ys, ht, hinv⟩ := hs.step hok
    rw [hstep] at ht
    obtain rfl := Option.some.inj ht
    exact ⟨ys, hinv⟩
  obtain ⟨xs, hs⟩ := hinv
  have hlen := hs.holds.length
  have hsize := hs.size
  refine ⟨?_, ?_, ?_, fun a hok => ?_, fun r ret q hok hfill hret => ?_⟩
  · rw [hs.holds.unread_eq]
    exact hs.filled
  · rw [hs.filled, List.length_append]
    omega
  · rw [hs.holds.unread_eq]
    exact hs.holds.readEvent
  · obtain ⟨t, -, ht, -⟩ := hs.step hok
    rw [ht]
    rfl
  · obtain ⟨ret', q', heq, hend, -, hq', hneg⟩ := hs.holds.fill hok
    rw [hfill] at heq
    obtain ⟨rfl, rfl⟩ := Prod.mk.inj (Option.some.inj heq)
    rw [hneg hret, List.append_nil] at hq'
    have hlen' := hq'.length
    refine ⟨?_, by omega⟩
    rw [hq'.unread_eq, hs.holds.unread_eq]

/-- A ring of two: the third event is written behind the end and copied back. -/
theorem reader_fifo_two : ∃ s : Reading ℕ,
    Runs Reading.step Reading.Allowed (.initial 2 fun _ => 0) s ∧ s.seen = [10] ∧
      s.reader.mHead = 1 ∧ s.reader.mBuffer 2 = 30 ∧ s.filled = s.seen ++ s.reader.unread := by
  obtain ⟨s, hrun, hseen, hhead, hspill⟩ := exists_runs Reading.step Reading.Allowed
    (fun s => s.seen = [10] ∧ s.reader.mHead = 1 ∧ s.reader.mBuffer 2 = 30)
    (s := Reading.initial 2 fun _ => 0)
    [.fill (.events [10, 20]), .readEvent, .next, .fill (.events [30])] (by decide +kernel)
  exact ⟨s, hrun, hseen, hhead, hspill, (reader_fifo 2 (by decide) _ s hrun).1⟩

end Softwinner.Sensors
